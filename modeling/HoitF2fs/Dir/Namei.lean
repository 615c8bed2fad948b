import HoitF2fs.Dir.DirRuns

/-!
# The operations on names

The inodes of a file system with their link counts, the directories, and the list of orphans: the
inodes that no name leads to, and that go when nobody has them open.

* `Inodes`, `Fs` — the state; `f2fsAcquireOrphanInode` and its companions, `dropNlink`.
* `Fs.addLink` — `f2fs_add_link`, with what `f2fs_init_inode_metadata` and
  `f2fs_update_parent_metadata` do to the counts.
* `f2fsCreate`, `f2fsMkdir`, `f2fsLink`, `f2fsSymlink`, `f2fsUnlink`, `f2fsRmdir`, `f2fsTmpfile`,
  `f2fsEvictInode` — the calls.
* `f2fsRename`, with its parts, and `f2fsCrossRename`.

An inode that a call has given up is evicted at once.  Quotas, encryption and what fails before the
first change of a call are not in the model.
-/

namespace Hoit.Namei

open Dir NodePath ByteStore

variable (lay : AddrLayout)

def emlink : ℤ := -31

def enotempty : ℤ := -39

/-! ## The inodes -/

structure Inodes where
  iMode : ℕ → ℕ
  iNlink : ℕ → ℕ
  /-- The inodes that there are. -/
  inodes : Finset ℕ
  /-- The list of `im[ORPHAN_INO]`. -/
  orphans : Finset ℕ
  /-- `im[ORPHAN_INO].ino_num`. -/
  inoNum : ℕ
  maxOrphans : ℕ

structure Fs extends Inodes where
  /-- The entries of an inode that is a directory. -/
  dir : ℕ → DirInode

/-- `S_ISDIR`. -/
def sIsDir (mode : ℕ) : Bool := mode / 2 ^ 12 % 16 == 4

namespace Inodes

variable (t : Inodes)

/-- `f2fs_i_links_write`. -/
def f2fsILinksWrite (ino : ℕ) (inc : Bool) : Inodes :=
  { t with
    iNlink := Function.update t.iNlink ino
      (if inc then t.iNlink ino + 1 else t.iNlink ino - 1) }

/-- `f2fs_acquire_orphan_inode`, without fault injection. -/
def f2fsAcquireOrphanInode : ℤ × Inodes :=
  if t.maxOrphans ≤ t.inoNum then (enospc, t) else (0, { t with inoNum := t.inoNum + 1 })

def f2fsReleaseOrphanInode : Inodes := { t with inoNum := t.inoNum - 1 }

def f2fsAddOrphanInode (ino : ℕ) : Inodes := { t with orphans := insert ino t.orphans }

def f2fsRemoveOrphanInode (ino : ℕ) : Inodes :=
  if ino ∈ t.orphans then
    { t with
      orphans := t.orphans.erase ino
      inoNum := t.inoNum - 1 }
  else t

/-- What follows when a link has gone, in `f2fs_drop_nlink` and in a rename. -/
def orphanOrRelease (ino : ℕ) : Inodes :=
  if t.iNlink ino = 0 then t.f2fsAddOrphanInode ino else t.f2fsReleaseOrphanInode

/-- What `f2fs_drop_nlink` does to the counts. -/
def dropNlink (dir inode : ℕ) : Inodes :=
  (if sIsDir (t.iMode inode) then
    ((t.f2fsILinksWrite dir false).f2fsILinksWrite inode false).f2fsILinksWrite inode false
  else t.f2fsILinksWrite inode false).orphanOrRelease inode

/-- The last `iput` of an inode; `f2fs_evict_inode`, with `f2fs_remove_inode_page`. -/
def f2fsEvictInode (ino : ℕ) : Inodes :=
  if t.iNlink ino = 0 then
    { t.f2fsRemoveOrphanInode ino with inodes := t.inodes.erase ino }
  else t

/-- `f2fs_new_inode`, with a number from `f2fs_alloc_nid`. -/
def f2fsNewInode (ino mode : ℕ) : Inodes :=
  { t with
    iMode := Function.update t.iMode ino mode
    iNlink := Function.update t.iNlink ino 1
    inodes := insert ino t.inodes }

/-- `f2fs_handle_failed_inode`; the inode goes with the `iput`. -/
def f2fsHandleFailedInode (ino : ℕ) : Inodes :=
  { t with
    iNlink := Function.update t.iNlink ino 0
    inodes := t.inodes.erase ino }

/-- `__f2fs_tmpfile`, with the error of `f2fs_do_tmpfile`.  The count goes down here for a whiteout,
and in `d_tmpfile` for others. -/
def f2fsTmpfile (ino mode : ℕ) (initErr : Option Err) : ℤ × Inodes :=
  let x := (t.f2fsNewInode ino mode).f2fsAcquireOrphanInode
  if x.1 ≠ 0 then (x.1, x.2.f2fsHandleFailedInode ino)
  else
    match initErr with
    | some e => (e.1, x.2.f2fsReleaseOrphanInode.f2fsHandleFailedInode ino)
    | none => (0, (x.2.f2fsAddOrphanInode ino).f2fsILinksWrite ino false)

/-- What `f2fs_init_inode_metadata` does to the counts; `incLink` is `FI_INC_LINK`. -/
def initLink (inode : ℕ) (incLink : Bool) : Inodes :=
  if incLink then
    (if t.iNlink inode = 0 then t.f2fsRemoveOrphanInode inode else t).f2fsILinksWrite inode true
  else t

/-- What `f2fs_update_parent_metadata` does to the counts; `isNew` is `FI_NEW_INODE`. -/
def f2fsUpdateParentMetadata (dir inode : ℕ) (isNew : Bool) : Inodes :=
  if isNew ∧ sIsDir (t.iMode inode) then t.f2fsILinksWrite dir true else t

end Inodes

/-! ## Calls -/

/-- What a call comes to: its error, if all of its loops end. -/
abbrev Outcome := Option (ℤ × Fs)

/-- The call goes on, if there is no error. -/
def Outcome.andThen (x : Outcome) (f : Fs → Outcome) : Outcome :=
  x.bind fun y => if y.1 = 0 then f y.2 else some y

/-- What a new directory gets. -/
structure NewDir where
  hasInlineDentry : Bool
  maxInlineData : ℕ
  iDirLevel : ℕ
  fits : 40 ≤ maxInlineData ∧ maxInlineData ≤ 4096

/-- What a directory needs for a new entry. -/
structure AddEnv where
  sameTask : Bool
  env : DirEnv
  dst : DentryPtr
  /-- For a new inode that is a directory. -/
  new : NewDir

variable (fs : Fs)

def Fs.setDir (d : ℕ) (dir : DirInode) : Fs := { fs with dir := Function.update fs.dir d dir }

/-- `f2fs_init_inode_metadata`, once it can no longer fail. -/
def Fs.f2fsInitInodeMetadata (a : AddEnv) (dir inode : ℕ) (isNew incLink : Bool) : Fs :=
  let fs :=
    if isNew ∧ sIsDir (fs.iMode inode) then
      fs.setDir inode (makeEmptyDir a.new.hasInlineDentry a.new.maxInlineData a.new.iDirLevel inode
        dir (fs.iMode inode) (fs.iMode dir))
    else fs
  { fs with toInodes := fs.initLink inode incLink }

/-- `f2fs_add_link`. -/
def Fs.addLink (a : AddEnv) (dir : ℕ) (name : List Byte) (inode : ℕ) (isNew incLink : Bool) :
    Outcome :=
  (f2fsDoAddLink lay a.sameTask a.env a.dst (fs.dir dir) name inode (fs.iMode inode)).map fun x =>
    let fs := fs.setDir dir x.2
    if x.1 = 0 then
      let fs := fs.f2fsInitInodeMetadata a dir inode isNew incLink
      (0, { fs with toInodes := fs.f2fsUpdateParentMetadata dir inode isNew })
    else (x.1, fs)

/-- The call goes on with the place of an entry, or it returns `absent` or an error. -/
def Fs.withEntry (dir : ℕ) (name : List Byte) (absent : ℤ) (f : ℕ × ℕ → Fs → Outcome) : Outcome :=
  (f2fsFindEntry lay (fs.dir dir) name).bind fun x =>
    let fs := fs.setDir dir x.2
    match x.1.de, x.1.err with
    | some p, _ => f p fs
    | none, some e => some (e, fs)
    | none, none => some (absent, fs)

/-- `f2fs_parent_dir`, for an inode that has a parent to look for. -/
def Fs.withParent (wanted : Bool) (inode : ℕ) (f : Option (ℕ × ℕ) → Fs → Outcome) : Outcome :=
  if wanted then fs.withEntry lay inode dotdot 0 fun p fs => f (some p) fs else f none fs

/-- `f2fs_set_link`. -/
def Fs.setLink (dir : ℕ) (p : ℕ × ℕ) (inode : ℕ) : Fs :=
  fs.setDir dir (f2fsSetLink (fs.dir dir) p.1 p.2 inode (fs.iMode inode))

/-- `f2fs_delete_entry`, without an inode. -/
def Fs.deleteEntry (env : DirEnv) (dir : ℕ) (p : ℕ × ℕ) : Fs :=
  fs.setDir dir (f2fsDeleteEntry env (fs.dir dir) p.1 p.2)

/-- `f2fs_drop_nlink`. -/
def Fs.f2fsDropNlink (dir inode : ℕ) : Fs where
  toInodes := fs.dropNlink dir inode
  dir :=
    if sIsDir (fs.iMode inode) then
      Function.update fs.dir inode { fs.dir inode with iSize := 0 }
    else fs.dir

/-- `f2fs_create` and `f2fs_mknod`, and `f2fs_mkdir` with `FI_INC_LINK`. -/
def f2fsCreate (a : AddEnv) (dir : ℕ) (name : List Byte) (ino mode : ℕ) (incLink : Bool) :
    Outcome :=
  let fs := { fs with toInodes := fs.f2fsNewInode ino mode }
  (fs.addLink lay a dir name ino true incLink).map fun x =>
    if x.1 = 0 then x else (x.1, { x.2 with toInodes := x.2.f2fsHandleFailedInode ino })

def f2fsMkdir (a : AddEnv) (dir : ℕ) (name : List Byte) (ino mode : ℕ) : Outcome :=
  f2fsCreate lay fs a dir name ino mode true

def f2fsLink (a : AddEnv) (inode dir : ℕ) (name : List Byte) : Outcome :=
  fs.addLink lay a dir name inode false true

/-- `f2fs_unlink`; `inode` is that of the dentry. -/
def f2fsUnlink (env : DirEnv) (dir : ℕ) (name : List Byte) (inode : ℕ) : Outcome :=
  -- `err` is that of `dquot_initialize` if there is no such entry
  fs.withEntry lay dir name 0 fun p fs =>
    let x := fs.f2fsAcquireOrphanInode
    if x.1 ≠ 0 then some (x.1, { fs with toInodes := x.2 })
    else some (0, ({ fs with toInodes := x.2 }.deleteEntry env dir p).f2fsDropNlink dir inode)

/-- `f2fs_symlink`; `dataErr` is the error of `page_symlink`. -/
def f2fsSymlink (a : AddEnv) (dir : ℕ) (name : List Byte) (ino mode : ℕ) (dataErr : Option Err)
    (env : DirEnv) : Outcome :=
  (f2fsCreate lay fs a dir name ino mode false).andThen fun fs =>
    match dataErr with
    | none => some (0, fs)
    | some e => (f2fsUnlink lay fs env dir name ino).map fun x => (e.1, x.2)

def f2fsRmdir (env : DirEnv) (dir : ℕ) (name : List Byte) (inode : ℕ) : Outcome :=
  if f2fsEmptyDir (fs.dir inode) then f2fsUnlink lay fs env dir name inode
  else some (enotempty, fs)

/-! ## Renames -/

/-- A whiteout, with a number from `f2fs_alloc_nid`. -/
structure Whiteout where
  ino : ℕ
  initErr : Option Err

structure RenameEnv where
  add : AddEnv
  addWhiteout : AddEnv
  del : DirEnv

/-- `S_IFCHR | WHITEOUT_MODE`. -/
def whiteoutMode : ℕ := 0x2000

/-- `f2fs_create_whiteout`, if the caller wants one.  What fails after that puts it back. -/
def Fs.withWhiteout (whiteout : Option Whiteout) (f : Fs → Outcome) : Outcome :=
  match whiteout with
  | none => f fs
  | some w =>
      let x := fs.f2fsTmpfile w.ino whiteoutMode w.initErr
      if x.1 ≠ 0 then some (x.1, { fs with toInodes := x.2 })
      else
        (f { fs with toInodes := x.2 }).map fun y =>
          if y.1 = 0 then y else (y.1, { y.2 with toInodes := y.2.f2fsEvictInode w.ino })

/-- What a rename does once the new entry is there: the old entry goes, a whiteout may take its
place, and a directory learns of its parent. -/
def Fs.renameTail (env : RenameEnv) (oldDir newDir : ℕ) (oldName : List Byte) (oldInode : ℕ)
    (oldDirEntry : Option (ℕ × ℕ)) (whiteout : Option Whiteout) (oldEntry : ℕ × ℕ) : Outcome :=
  let fs := fs.deleteEntry env.del oldDir oldEntry
  (match whiteout with
    | none => some (0, fs)
    | some w => fs.addLink lay env.addWhiteout oldDir oldName w.ino false true : Outcome).andThen
    fun fs =>
      match oldDirEntry with
      | none => some (0, fs)
      | some p =>
          let fs := if oldDir ≠ newDir ∧ whiteout.isNone then fs.setLink oldInode p newDir else fs
          some (0, { fs with toInodes := fs.f2fsILinksWrite oldDir false })

/-- The part of a rename that puts the old inode in the place of the new one. -/
def Fs.renameOver (isDir : Bool) (newDir : ℕ) (newName : List Byte) (oldInode newInode : ℕ) :
    Outcome :=
  if isDir ∧ ¬ f2fsEmptyDir (fs.dir newInode) then some (enotempty, fs)
  else
    fs.withEntry lay newDir newName enoent fun newEntry fs =>
      let x := fs.f2fsAcquireOrphanInode
      if x.1 ≠ 0 then some (x.1, { fs with toInodes := x.2 })
      else
        let fs := { fs with toInodes := x.2 }.setLink newDir newEntry oldInode
        let t := if isDir then fs.f2fsILinksWrite newInode false else fs.toInodes
        some (0, { fs with toInodes := (t.f2fsILinksWrite newInode false).orphanOrRelease newInode })

/-- The part of a rename that makes a new entry.  The old entry moves if its directory is no longer
inline. -/
def Fs.renameTo (env : RenameEnv) (isDir isOldInline : Bool) (oldDir newDir : ℕ)
    (oldName newName : List Byte) (oldInode : ℕ) (oldEntry : ℕ × ℕ)
    (f : ℕ × ℕ → Fs → Outcome) : Outcome :=
  (fs.addLink lay env.add newDir newName oldInode false false).andThen fun fs =>
    let fs := if isDir then { fs with toInodes := fs.f2fsILinksWrite newDir true } else fs
    if isOldInline ∧ (fs.dir oldDir).inlineDentry.isNone then
      fs.withEntry lay oldDir oldName enoent f
    else f oldEntry fs

/-- `f2fs_rename`; the inodes are those of the dentries. -/
def f2fsRename (env : RenameEnv) (oldDir : ℕ) (oldName : List Byte) (oldInode newDir : ℕ)
    (newName : List Byte) (newInode : Option ℕ) (whiteout : Option Whiteout) : Outcome :=
  let isOldInline := (fs.dir oldDir).inlineDentry.isSome
  let isDir := sIsDir (fs.iMode oldInode)
  fs.withEntry lay oldDir oldName 0 fun oldEntry fs =>
    fs.withParent lay isDir oldInode fun oldDirEntry fs =>
      fs.withWhiteout whiteout fun fs =>
        let tail := fun oldEntry (fs : Fs) =>
          fs.renameTail lay env oldDir newDir oldName oldInode oldDirEntry whiteout oldEntry
        match newInode with
        | some newInode =>
            (fs.renameOver lay isDir newDir newName oldInode newInode).andThen (tail oldEntry)
        | none =>
            fs.renameTo lay env isDir isOldInline oldDir newDir oldName newName oldInode oldEntry tail

/-- The links of `f2fs_cross_rename`, with the entries of the two dentries and those for `..`. -/
def Fs.crossLinks (oldDir oldInode newDir newInode : ℕ) (oldEntry newEntry : ℕ × ℕ)
    (oldDirEntry newDirEntry : Option (ℕ × ℕ)) : Fs :=
  let fs := match oldDirEntry with
    | some p => fs.setLink oldInode p newDir
    | none => fs
  let fs := match newDirEntry with
    | some p => fs.setLink newInode p oldDir
    | none => fs
  (fs.setLink oldDir oldEntry newInode).setLink newDir newEntry oldInode

/-- `f2fs_cross_rename`. -/
def f2fsCrossRename (oldDir : ℕ) (oldName : List Byte) (oldInode newDir : ℕ) (newName : List Byte)
    (newInode : ℕ) : Outcome :=
  fs.withEntry lay oldDir oldName 0 fun oldEntry fs =>
    fs.withEntry lay newDir newName 0 fun newEntry fs =>
      fs.withParent lay (oldDir != newDir && sIsDir (fs.iMode oldInode)) oldInode
        fun oldDirEntry fs =>
        fs.withParent lay (oldDir != newDir && sIsDir (fs.iMode newInode)) newInode
          fun newDirEntry fs =>
          -- `old_nlink` and `new_nlink` are 1 and -1, or both 0
          let oldInc := oldDirEntry.isNone && newDirEntry.isSome
          let newInc := newDirEntry.isNone && oldDirEntry.isSome
          if oldInc ∧ 2 ^ 32 - 1 ≤ fs.iNlink oldDir ∨ newInc ∧ 2 ^ 32 - 1 ≤ fs.iNlink newDir then
            some (emlink, fs)
          else
            let fs := fs.crossLinks oldDir oldInode newDir newInode oldEntry newEntry oldDirEntry
              newDirEntry
            some (0, if oldInc ∨ newInc then
              { fs with toInodes :=
                  (fs.f2fsILinksWrite oldDir oldInc).f2fsILinksWrite newDir newInc }
            else fs)

end Hoit.Namei
