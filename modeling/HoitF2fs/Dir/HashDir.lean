import HoitF2fs.Dir.DentryBlock
import HoitF2fs.Dir.DentryHash
import HoitF2fs.Node.NodePath

/-!
# Hashed directories

A directory of blocks is a hash table of many levels, each with more buckets than the one before.  A
name is looked up in its bucket of each level, and is put into the first bucket that has room, from
the level on that the last lookup of its hash has left in `clevel`.

* `DirInode` — the blocks and fields of a directory, or its inline area.
* `f2fsFindEntry` — `__f2fs_find_entry`; `f2fsAddRegularEntry`, `f2fsAddDentry`, `f2fsDoAddLink`,
  `f2fsDeleteEntry`, `f2fsSetLink`, `f2fsEmptyDir`.
* `f2fsConvertInlineDir` — an inline directory is moved as it is, or hashed anew.
* `DirEnv` — what fails during a call.

The directory is not encrypted, and a block that exists can be read.  `max_depth` is not above
`MAX_DIR_HASH_DEPTH`; what `__f2fs_find_entry` does about others is in the model, but its message is
not.
-/

namespace Hoit.Dir

open NodePath Bitmap ByteStore

def enoent : ℤ := -2

def eagain : ℤ := -11

def enospc : ℤ := -28

def e2big : ℤ := -7

def eexist : ℤ := -17

/-- An error of a call, which is not the `-EAGAIN` with which `f2fs_add_inline_entry` says that it
has converted the directory. -/
abbrev Err := {e : ℤ // e < 0 ∧ e ≠ eagain}

/-! ## Buckets -/

def maxDirHashDepth : ℕ := 63

/-- `MAX_DIR_BUCKETS`. -/
def maxDirBuckets : ℕ := 2 ^ 30

def dirBuckets (level dirLevel : ℕ) : ℕ :=
  if level + dirLevel < maxDirHashDepth / 2 then 2 ^ (level + dirLevel) else maxDirBuckets

def bucketBlocks (level : ℕ) : ℕ := if level < maxDirHashDepth / 2 then 2 else 4

/-- The loop of `dir_block_index`.  The products are `unsigned int`. -/
def levelStart (dirLevel : ℕ) : (level : ℕ) → ℕ
  | 0 => 0
  | level + 1 => levelStart dirLevel level + dirBuckets level dirLevel * bucketBlocks level % 2 ^ 32

def dirBlockIndex (level dirLevel idx : ℕ) : ℕ :=
  levelStart dirLevel level + idx * bucketBlocks level % 2 ^ 32

/-! ## Directories -/

structure DirInode where
  /-- `MAX_INLINE_DATA`. -/
  maxInlineData : ℕ
  /-- The inline area, if the directory has one. -/
  inlineDentry : Option DentryPtr
  block : ℕ → Option DentryPtr
  iSize : ℕ
  iCurrentDepth : ℕ
  iDirLevel : ℕ
  chash : ℕ
  clevel : ℕ

/-- What fails during a call. -/
structure DirEnv where
  /-- The error of `f2fs_get_new_data_page` for a block, in each of the calls of
  `f2fs_add_regular_entry`. -/
  newPageErr : ℕ → ℕ → Option Err
  /-- The error of `f2fs_init_inode_metadata`. -/
  initErr : Option Err
  /-- The error of `f2fs_grab_cache_page` or `f2fs_reserve_block`, or of the allocation of the
  backup, when an inline directory is converted. -/
  convertErr : Option Err
  /-- `f2fs_truncate_hole` fails. -/
  holeFails : Bool

/-- `dir_blocks`. -/
def DirInode.dirBlocks (dir : DirInode) : ℕ := (dir.iSize + 4095) / 4096

/-- A block of zeros. -/
def emptyDentryBlock : DentryPtr where
  max := nrDentryInBlock
  bitmap := fun _ => false
  dentry := fun _ => ⟨0, 0, 0, 0⟩
  filename := fun _ => 0

variable (lay : AddrLayout)

/-! ## Lookup -/

/-- `f2fs_find_data_page`. -/
def f2fsFindDataPage (dir : DirInode) (index : ℕ) : Except ℤ DentryPtr :=
  match getNodePath lay index with
  | none => .error e2big
  | some _ =>
      match dir.block index with
      | none => .error enoent
      | some d => .ok d

structure LevelResult where
  /-- The block and the slot of the entry. -/
  de : Option (ℕ × ℕ)
  err : Option ℤ
  room : Bool

/-- The loop of `find_in_level`, `k` blocks from `bidx` on. -/
def findBlocks (dir : DirInode) (name : List Byte) (namehash : ℕ) :
    (k bidx : ℕ) → (room : Bool) → Option LevelResult
  | 0, _, room => some ⟨none, none, room⟩
  | k + 1, bidx, room =>
      match f2fsFindDataPage lay dir bidx with
      | .error e =>
          -- no need to allocate new dentry pages to all the indices
          if e = enoent then findBlocks dir name namehash k (bidx + 1) true
          else some ⟨none, some e, room⟩
      | .ok d =>
          (f2fsFindTargetDentry d namehash (· == name) true).bind fun x =>
            match x.de with
            | some i => some ⟨some (bidx, i), none, room⟩
            | none =>
                let s := getDentrySlots name.length
                findBlocks dir name namehash k (bidx + 1)
                  (room || decide (s ≤ x.maxSlots.getD 0))

/-- `find_in_level`.  Here `bidx` and `end_block` are `unsigned int`. -/
def findInLevel (dir : DirInode) (level : ℕ) (name : List Byte) :
    Option (LevelResult × DirInode) :=
  let namehash := f2fsDentryHash name
  let nbucket := dirBuckets level dir.iDirLevel
  let bidx := dirBlockIndex level dir.iDirLevel (namehash % nbucket) % 2 ^ 32
  let endBlock := (bidx + bucketBlocks level) % 2 ^ 32
  (findBlocks lay dir name namehash (endBlock - bidx) bidx false).map fun r =>
    (r, if r.de = none ∧ r.room = true ∧ dir.chash ≠ namehash then
      { dir with chash := namehash, clevel := level } else dir)

/-- What a lookup returns: the entry, or the error that is in `*res_page`. -/
structure FoundEntry where
  de : Option (ℕ × ℕ)
  err : Option ℤ

/-- The loop of `__f2fs_find_entry`, `k` levels from `level` on. -/
def findLevels (name : List Byte) : (k level : ℕ) → DirInode → Option (FoundEntry × DirInode)
  | 0, _, dir => some (⟨none, none⟩, dir)
  | k + 1, level, dir =>
      (findInLevel lay dir level name).bind fun x =>
        if x.1.de ≠ none ∨ x.1.err ≠ none then some (⟨x.1.de, x.1.err⟩, x.2)
        else findLevels name k (level + 1) x.2

/-- `f2fs_find_in_inline_dir`. -/
def f2fsFindInInlineDir (d : DentryPtr) (name : List Byte) : Option FoundEntry :=
  (f2fsFindTargetDentry d (f2fsDentryHash name) (· == name) false).map fun x =>
    ⟨x.de.map fun i => (0, i), none⟩

/-- `__f2fs_find_entry`. -/
def f2fsFindEntry (dir : DirInode) (name : List Byte) : Option (FoundEntry × DirInode) :=
  match dir.inlineDentry with
  | some d => (f2fsFindInInlineDir d name).map fun r => (r, dir)
  | none =>
      if dir.dirBlocks = 0 then some (⟨none, none⟩, dir)
      else
        let dir := if maxDirHashDepth < dir.iCurrentDepth then
          { dir with iCurrentDepth := maxDirHashDepth } else dir
        findLevels lay name dir.iCurrentDepth 0 dir

/-! ## New entries -/

/-- `f2fs_get_new_data_page`, with `new_i_size`. -/
def f2fsGetNewDataPage (newPageErr : ℕ → Option Err) (dir : DirInode) (index : ℕ) :
    Except ℤ (DentryPtr × DirInode) :=
  match getNodePath lay index with
  | none => .error e2big
  | some _ =>
      match newPageErr index with
      | some e => .error e.1
      | none =>
          let d := (dir.block index).getD emptyDentryBlock
          .ok (d, { dir with
            block := Function.update dir.block index (some d)
            iSize := max dir.iSize ((index + 1) * 4096) })

inductive RoomResult where
  | failed (err : ℤ)
  /-- `add_dentry`: the block, and `bit_pos`. -/
  | found (block bitPos : ℕ)
  | full

/-- The loop of `f2fs_add_regular_entry` over the blocks of a bucket. -/
def addBlocks (newPageErr : ℕ → Option Err) (slots : ℕ) :
    (k block : ℕ) → DirInode → Option (RoomResult × DirInode)
  | 0, _, dir => some (.full, dir)
  | k + 1, block, dir =>
      match f2fsGetNewDataPage lay newPageErr dir block with
      | .error e => some (.failed e, dir)
      | .ok (d, dir) =>
          (f2fsRoomForFilename d.bitmap slots nrDentryInBlock).bind fun bitPos =>
            if bitPos < nrDentryInBlock then some (.found block bitPos, dir)
            else addBlocks newPageErr slots k (block + 1) dir

/-- The loop over the levels, from `start` on. -/
def addLevels (newPageErr : ℕ → Option Err) (slots dentryHash : ℕ) :
    (fuel level currentDepth : ℕ) → DirInode → Option (RoomResult × ℕ × DirInode)
  | 0, _, _, _ => none
  | fuel + 1, level, currentDepth, dir =>
      if currentDepth = maxDirHashDepth then some (.failed enospc, currentDepth, dir)
      else
        -- increase the depth, if required
        let currentDepth := if level = currentDepth then currentDepth + 1 else currentDepth
        let nbucket := dirBuckets level dir.iDirLevel
        let bidx := dirBlockIndex level dir.iDirLevel (dentryHash % nbucket)
        (addBlocks lay newPageErr slots (bucketBlocks level) bidx dir).bind fun x =>
          match x.1 with
          | .full => addLevels newPageErr slots dentryHash fuel (level + 1) currentDepth x.2
          | r => some (r, currentDepth, x.2)

/-- `f2fs_add_regular_entry`; it returns the error. -/
def f2fsAddRegularEntry (newPageErr : ℕ → Option Err) (initErr : Option Err) (dir : DirInode)
    (name : List Byte) (ino mode : ℕ) : Option (ℤ × DirInode) :=
  let slots := getDentrySlots name.length
  let dentryHash := f2fsDentryHash name
  let level := if dir.chash = dentryHash then dir.clevel else 0
  let dir := if dir.chash = dentryHash then { dir with chash := 0 } else dir
  (addLevels lay newPageErr slots dentryHash (maxDirHashDepth + 1) level dir.iCurrentDepth dir).map
    fun x =>
      match x.1 with
      | .failed e => (e, x.2.2)
      -- the loop over the levels ends with one of the other two
      | .full => (enospc, x.2.2)
      | .found block bitPos =>
          match initErr with
          | some e => (e.1, x.2.2)
          | none =>
              (0, { x.2.2 with
                block := Function.update x.2.2.block block ((x.2.2.block block).map fun d =>
                  f2fsUpdateDentry ino mode d name dentryHash bitPos)
                iCurrentDepth := x.2.1 })

/-! ## Inline directories -/

/-- `f2fs_move_inline_dirents`.  The block may have anything in it but for the bitmap. -/
def f2fsMoveInlineDirents (env : DirEnv) (dir : DirInode) (src dst : DentryPtr) : ℤ × DirInode :=
  match env.convertErr with
  | some e => (e.1, dir)
  | none =>
      let blk : DentryPtr := {
        max := nrDentryInBlock
        bitmap := fun i => if i < (src.max + 7) / 8 * 8 then src.bitmap i else false
        dentry := fun i => if i < src.max then src.dentry i else dst.dentry i
        filename := memcpy dst.filename 0 src.filename 0 (src.max * slotLen) }
      (0, { dir with
        inlineDentry := none
        block := Function.update dir.block 0 (some blk)
        iCurrentDepth := 1
        iSize := max dir.iSize 4096 })

/-- The loop of `f2fs_add_inline_entries`; the error, and the directory. -/
def addInlineLoop (env : DirEnv) (d : DentryPtr) :
    (fuel bitPos : ℕ) → DirInode → Option (ℤ × DirInode)
  | 0, _, _ => none
  | fuel + 1, bitPos, dir =>
      if bitPos < d.max then
        if !d.bitmap bitPos then addInlineLoop env d fuel (bitPos + 1) dir
        else
          let de := d.dentry bitPos
          if de.nameLen = 0 then addInlineLoop env d fuel (bitPos + 1) dir
          else
            let fakeMode := f2fsGetDeType de * 2 ^ 12
            (f2fsAddRegularEntry lay (env.newPageErr (bitPos + 1)) none dir
                (d.name (d.nameSlice bitPos)) de.ino fakeMode).bind fun x =>
              if x.1 ≠ 0 then some x
              else addInlineLoop env d fuel (bitPos + getDentrySlots de.nameLen) x.2
      else some (0, dir)

/-- `f2fs_move_rehashed_dirents`, with `f2fs_add_inline_entries`.  If that fails, it gives up the
blocks, and the inline area comes back from the backup. -/
def f2fsMoveRehashedDirents (env : DirEnv) (dir : DirInode) (d : DentryPtr) :
    Option (ℤ × DirInode) :=
  match env.convertErr with
  | some e => some (e.1, dir)
  | none =>
      (addInlineLoop lay env d (d.max + 1) 0 dir).map fun x =>
        if x.1 = 0 then (0, { x.2 with inlineDentry := none })
        else
          (x.1, { x.2 with
            inlineDentry := some d
            block := fun _ => none
            iCurrentDepth := 0
            iSize := dir.maxInlineData })

/-- `f2fs_convert_inline_dir`; `dst` is what is in the page for the first block. -/
def f2fsConvertInlineDir (env : DirEnv) (dir : DirInode) (d dst : DentryPtr) :
    Option (ℤ × DirInode) :=
  if dir.iDirLevel = 0 then some (f2fsMoveInlineDirents env dir d dst)
  else f2fsMoveRehashedDirents lay env dir d

/-- `f2fs_add_inline_entry`. -/
def f2fsAddInlineEntry (env : DirEnv) (dst : DentryPtr) (dir : DirInode) (d : DentryPtr)
    (name : List Byte) (ino mode : ℕ) : Option (ℤ × DirInode) :=
  (f2fsRoomForFilename d.bitmap (getDentrySlots name.length) d.max).bind fun bitPos =>
    if d.max ≤ bitPos then
      (f2fsConvertInlineDir lay env dir d dst).map fun x =>
        (if x.1 ≠ 0 then x.1 else eagain, x.2)
    else
      match env.initErr with
      | some e => some (e.1, dir)
      | none =>
          some (0, { dir with
            inlineDentry :=
              some (f2fsUpdateDentry ino mode d name (f2fsDentryHash name) bitPos)
            iCurrentDepth := 0 })

/-- `f2fs_add_dentry`. -/
def f2fsAddDentry (env : DirEnv) (dst : DentryPtr) (dir : DirInode) (name : List Byte)
    (ino mode : ℕ) : Option (ℤ × DirInode) :=
  (match dir.inlineDentry with
    | some d => f2fsAddInlineEntry lay env dst dir d name ino mode
    | none => some (eagain, dir)).bind fun x =>
      if x.1 = eagain then
        f2fsAddRegularEntry lay (env.newPageErr 0) env.initErr x.2 name ino mode
      else some x

/-- `f2fs_do_add_link`; `sameTask` is `current == F2FS_I(dir)->task`. -/
def f2fsDoAddLink (sameTask : Bool) (env : DirEnv) (dst : DentryPtr) (dir : DirInode)
    (name : List Byte) (ino mode : ℕ) : Option (ℤ × DirInode) :=
  (if sameTask then some (⟨none, none⟩, dir) else f2fsFindEntry lay dir name).bind fun x =>
    match x.1.de, x.1.err with
    | some _, _ => some (eexist, x.2)
    | none, some e => some (e, x.2)
    | none, none => f2fsAddDentry lay env dst x.2 name ino mode

/-! ## Changes of entries -/

/-- `f2fs_delete_entry`, for the entry in slot `bitPos` of block `n`. -/
def f2fsDeleteEntry (env : DirEnv) (dir : DirInode) (n bitPos : ℕ) : DirInode :=
  match dir.inlineDentry with
  | some d => { dir with inlineDentry := some (clearDentry d bitPos) }
  | none =>
      match dir.block n with
      | none => dir
      | some d =>
          let d := clearDentry d bitPos
          -- let's check and deallocate this dentry page
          let gone := findNextBit d.bitmap nrDentryInBlock 0 = nrDentryInBlock ∧ ¬ env.holeFails
          { dir with block := Function.update dir.block n (if gone then none else some d) }

/-- `f2fs_set_link`. -/
def f2fsSetLink (dir : DirInode) (n bitPos ino mode : ℕ) : DirInode :=
  match dir.inlineDentry with
  | some d => { dir with inlineDentry := some (setDentryIno d bitPos ino mode) }
  | none =>
      { dir with block := Function.update dir.block n ((dir.block n).map fun d =>
          setDentryIno d bitPos ino mode) }

/-- The loop of `f2fs_empty_dir`, `k` blocks from `bidx` on. -/
def emptyBlocks (dir : DirInode) : (k bidx : ℕ) → Bool
  | 0, _ => true
  | k + 1, bidx =>
      match dir.block bidx with
      | none => emptyBlocks dir k (bidx + 1)
      | some d =>
          let bitPos := findNextBit d.bitmap nrDentryInBlock (if bidx = 0 then 2 else 0)
          if bitPos < nrDentryInBlock then false else emptyBlocks dir k (bidx + 1)

/-- `f2fs_empty_dir`, with `f2fs_empty_inline_dir`. -/
def f2fsEmptyDir (dir : DirInode) : Bool :=
  match dir.inlineDentry with
  | some d => decide (d.max ≤ findNextBit d.bitmap d.max 2)
  | none => emptyBlocks dir dir.dirBlocks 0

/-! ## A new directory -/

def dot : List Byte := [0x2E]

def dotdot : List Byte := [0x2E, 0x2E]

/-- `f2fs_do_make_empty_dir`; `mode` is that of a directory. -/
def f2fsDoMakeEmptyDir (d : DentryPtr) (ino parentIno mode parentMode : ℕ) : DentryPtr :=
  f2fsUpdateDentry parentIno parentMode (f2fsUpdateDentry ino mode d dot 0 0) dotdot 0 1

end Hoit.Dir
