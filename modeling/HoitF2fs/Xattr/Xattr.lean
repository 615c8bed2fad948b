import HoitF2fs.Lib.ByteList

/-!
# Extended attributes

The attributes of an inode are a list of entries behind a header of 24 bytes.  The list begins in the
inline area of the inode and goes on in a node block of its own, when there is one.

**The model.**
* `XattrInode` — the bytes of the inline area and of the block.
* `readAllXattrs` — both areas in one buffer, with room for the word that ends the list.
* `lookupAllXattrs` — the same for a single name, but the block is read only when the entry is not
  in the inline area (`findInlineXattr`).
* `writeAllXattrs` — back to the two areas; the block comes and goes with the size of the list.
* `f2fsSetxattr`, `f2fsGetxattr`, `f2fsListxattr` — the calls.

A pointer is an offset in the buffer.  `XattrEnv` says which pages cannot be read and whether memory
or a node number is missing.
-/

namespace Hoit.Xattr

open ByteStore

-- `Hoit` has a `memcpy` and a `Holds` of its own.
export ByteStore (memcpy Holds)

/-- A call fails with one of these; `io` is what a page gave. -/
inductive Errno where
  | EINVAL
  | ERANGE
  | ENODATA
  | EEXIST
  | E2BIG
  | ENOMEM
  | ENOSPC
  | io (n : ℕ)
deriving DecidableEq

/-! ## Entries -/

/-- `F2FS_NAME_LEN`. -/
def f2fsNameLen : ℕ := 255

/-- `sizeof(struct f2fs_xattr_header)`. -/
def headerSize : ℕ := 24

/-- `VALID_XATTR_BLOCK_SIZE`. -/
def validXattrBlockSize : ℕ := 4096 - 24

/-- `XATTR_PADDING_SIZE`. -/
def xattrPaddingSize : ℕ := 4

/-- `F2FS_XATTR_MAGIC`. -/
def f2fsXattrMagic : ℕ := 0xF2F52011

/-- `XATTR_ALIGN`. -/
def xattrAlign (size : ℕ) : ℕ := (size + 3) / 4 * 4

def eNameIndex (a : Area) (e : ℕ) : ℕ := (a e).toNat

def eNameLen (a : Area) (e : ℕ) : ℕ := (a (e + 1)).toNat

def eValueSize (a : Area) (e : ℕ) : ℕ := getLe a (e + 2) 2

def eName (a : Area) (e : ℕ) : List Byte := slice a (e + 4) (eNameLen a e)

/-- The value stands behind the name. -/
def eValue (a : Area) (e : ℕ) : List Byte := slice a (e + 4 + eNameLen a e) (eValueSize a e)

/-- `ENTRY_SIZE`. -/
def entrySize (a : Area) (e : ℕ) : ℕ := xattrAlign (4 + eNameLen a e + eValueSize a e)

/-- `XATTR_FIRST_ENTRY`. -/
def xattrFirstEntry (baseAddr : ℕ) : ℕ := baseAddr + headerSize

/-- `XATTR_NEXT_ENTRY`. -/
def xattrNextEntry (a : Area) (e : ℕ) : ℕ := e + entrySize a e

/-- `IS_XATTR_LAST_ENTRY`. -/
def isXattrLastEntry (a : Area) (e : ℕ) : Bool := getLe a e 4 == 0

/-- `MIN_OFFSET`. -/
def minOffset (inlineSize : ℕ) : ℕ := xattrAlign (inlineSize + validXattrBlockSize)

/-- `MAX_VALUE_LEN`. -/
def maxValueLen (inlineSize : ℕ) : ℕ := minOffset inlineSize - headerSize - 4

/-- The size of the buffer; no list has more entries than that. -/
def txattrSize (inlineSize : ℕ) : ℕ := inlineSize + validXattrBlockSize + xattrPaddingSize

/-- The entry has this index and this name. -/
def entryIs (a : Area) (e index : ℕ) (name : List Byte) : Bool :=
  eNameIndex a e == index && eNameLen a e == name.length && eName a e == name

/-- The loop of `__find_xattr`. -/
def findXattrFrom (a : Area) (index : ℕ) (name : List Byte) : ℕ → ℕ → ℕ
  | 0, entry => entry
  | fuel + 1, entry =>
      if isXattrLastEntry a entry then entry
      else if entryIs a entry index name then entry
      else findXattrFrom a index name fuel (xattrNextEntry a entry)

/-- `__find_xattr`. -/
def findXattr (inlineSize : ℕ) (a : Area) (baseAddr index : ℕ) (name : List Byte) : ℕ :=
  findXattrFrom a index name (txattrSize inlineSize) (xattrFirstEntry baseAddr)

/-- What `__find_inline_xattr` gives: an entry, or `last_addr` and nothing. -/
inductive InlineEntry where
  | entry (e : ℕ)
  | past (lastAddr : ℕ)

/-- The loop of `__find_inline_xattr`. -/
def findInlineXattrFrom (inlineSize : ℕ) (a : Area) (index : ℕ) (name : List Byte) :
    ℕ → ℕ → InlineEntry
  | 0, entry => .entry entry
  | fuel + 1, entry =>
      if isXattrLastEntry a entry then .entry entry
      else if inlineSize < entry + 4 ∨ inlineSize < xattrNextEntry a entry + 4 then .past entry
      else if entryIs a entry index name then .entry entry
      else findInlineXattrFrom inlineSize a index name fuel (xattrNextEntry a entry)

/-- `__find_inline_xattr`. -/
def findInlineXattr (inlineSize : ℕ) (a : Area) (index : ℕ) (name : List Byte) : InlineEntry :=
  findInlineXattrFrom inlineSize a index name (txattrSize inlineSize) (xattrFirstEntry 0)

/-- The loop that looks for the end of the list. -/
def lastXattrFrom (a : Area) : ℕ → ℕ → ℕ
  | 0, last => last
  | fuel + 1, last =>
      if isXattrLastEntry a last then last else lastXattrFrom a fuel (xattrNextEntry a last)

/-! ## The two areas -/

/-- Where the attributes of an inode are stored: the inline area, of which the first
`inline_xattr_size` bytes count, and the block that `i_xattr_nid` points to. -/
structure XattrInode where
  inlineArea : Area
  xattrNode : Option Area

/-- Whether the inode page is given (`ipage`), and what goes wrong in one call. -/
structure XattrEnv where
  ipage : Bool
  dquot : Option Errno
  noMem : Bool
  readInodePage : Option ℕ
  readXattrPage : Option ℕ
  noNid : Bool
  writeInodePage : Option ℕ
  truncateXattrPage : Option ℕ
  /-- `f2fs_get_node_page` or `f2fs_new_node_page`. -/
  writeXattrPage : Option ℕ

/-- `read_inline_xattr`. -/
def readInlineXattr (inlineSize : ℕ) (s : XattrInode) (env : XattrEnv) (txattr : Area) :
    Except Errno Area :=
  match (if env.ipage then none else env.readInodePage) with
  | some n => .error (.io n)
  | none => .ok (memcpy txattr 0 s.inlineArea 0 inlineSize)

/-- `read_xattr_block`, on the block `node`. -/
def readXattrBlock (inlineSize : ℕ) (node : Area) (env : XattrEnv) (txattr : Area) :
    Except Errno Area :=
  match env.readXattrPage with
  | some n => .error (.io n)
  | none => .ok (memcpy txattr inlineSize node 0 validXattrBlockSize)

/-- The inline area is read, when there is one. -/
def readInline (inlineSize : ℕ) (s : XattrInode) (env : XattrEnv) : Except Errno Area :=
  if 0 < inlineSize then readInlineXattr inlineSize s env fun _ => 0 else .ok fun _ => 0

/-- The block is read, when there is one. -/
def readNode (inlineSize : ℕ) (s : XattrInode) (env : XattrEnv) (txattr : Area) :
    Except Errno Area :=
  match s.xattrNode with
  | some node => readXattrBlock inlineSize node env txattr
  | none => .ok txattr

/-- The end of `lookup_all_xattrs`. -/
def checkLast (a : Area) (xe : ℕ) : Except Errno (ℕ × Area) :=
  if isXattrLastEntry a xe then .error .ENODATA else .ok (xe, a)

/-- The second part of `lookup_all_xattrs`: the block, and the list from `cur_addr` on. -/
def lookupRest (inlineSize : ℕ) (s : XattrInode) (env : XattrEnv) (index : ℕ) (name : List Byte)
    (txattr : Area) (curAddr : ℕ) : Except Errno (ℕ × Area) :=
  match readNode inlineSize s env txattr with
  | .error e => .error e
  | .ok a => checkLast a (findXattr inlineSize a curAddr index name)

/-- `lookup_all_xattrs`: the entry, and the buffer. -/
def lookupAllXattrs (inlineSize : ℕ) (s : XattrInode) (env : XattrEnv) (index : ℕ)
    (name : List Byte) : Except Errno (ℕ × Area) :=
  if s.xattrNode.isNone ∧ inlineSize = 0 then .error .ENODATA
  else if env.noMem then .error .ENOMEM
  else
    match readInline inlineSize s env with
    | .error e => .error e
    | .ok txattr =>
        if 0 < inlineSize then
          match findInlineXattr inlineSize txattr index name with
          | .entry xe => checkLast txattr xe
          -- `XATTR_HDR(last_addr) - 1`
          | .past lastAddr =>
              lookupRest inlineSize s env index name txattr (lastAddr - headerSize)
        else lookupRest inlineSize s env index name txattr 0

/-- `read_all_xattrs`. -/
def readAllXattrs (inlineSize : ℕ) (s : XattrInode) (env : XattrEnv) : Except Errno Area :=
  if env.noMem then .error .ENOMEM
  else
    match readInline inlineSize s env with
    | .error e => .error e
    | .ok a =>
        match readNode inlineSize s env a with
        | .error e => .error e
        | .ok txattr =>
            -- never been allocated xattrs
            if getLe txattr 0 4 = f2fsXattrMagic then .ok txattr
            else .ok ((putLe 4 4 1).apply ((putLe 0 4 f2fsXattrMagic).apply txattr))

/-- `f2fs_truncate_xattr_node`. -/
def f2fsTruncateXattrNode (s : XattrInode) (env : XattrEnv) : XattrInode × Option Errno :=
  if s.xattrNode.isNone then (s, none)
  else
    match env.truncateXattrPage with
    | some n => (s, some (.io n))
    | none => ({ s with xattrNode := none }, none)

/-- `write_all_xattrs`. -/
def writeAllXattrs (inlineSize : ℕ) (s : XattrInode) (env : XattrEnv) (hsize : ℕ) (txattr : Area) :
    XattrInode × Option Errno :=
  if inlineSize < hsize ∧ s.xattrNode.isNone ∧ env.noNid then (s, some .ENOSPC)
  else
    match (if 0 < inlineSize ∧ env.ipage = false then env.writeInodePage else none) with
    | some n => (s, some (.io n))
    | none =>
        if 0 < inlineSize ∧ hsize ≤ inlineSize then
          -- no need to use xattr node block
          match f2fsTruncateXattrNode s env with
          | (s, some e) => (s, some e)
          | (s, none) =>
              ({ s with inlineArea := memcpy s.inlineArea 0 txattr 0 inlineSize }, none)
        else
          match env.writeXattrPage with
          | some n => (s, some (.io n))
          | none =>
              ({ inlineArea :=
                  if 0 < inlineSize then memcpy s.inlineArea 0 txattr 0 inlineSize else s.inlineArea
                 xattrNode := some
                  (memcpy (s.xattrNode.getD fun _ => 0) 0 txattr inlineSize validXattrBlockSize) },
                none)

/-! ## The calls -/

/-- `f2fs_getxattr`: the size of the value, and what was put into the buffer; `buffer` is the size of
the buffer, if there is one. -/
def f2fsGetxattr (inlineSize : ℕ) (s : XattrInode) (env : XattrEnv) (index : ℕ)
    (name : Option (List Byte)) (buffer : Option ℕ) : Except Errno (ℕ × List Byte) :=
  match name with
  | none => .error .EINVAL
  | some name =>
      if f2fsNameLen < name.length then .error .ERANGE
      else
        match lookupAllXattrs inlineSize s env index name with
        | .error e => .error e
        | .ok (entry, a) =>
            match buffer with
            | none => .ok (eValueSize a entry, [])
            | some bufferSize =>
                if bufferSize < eValueSize a entry then .error .ERANGE
                else .ok (eValueSize a entry, eValue a entry)

/-- `struct xattr_handler`: the prefix, or else the name, and whether the entry is shown. -/
structure XattrHandler where
  prefixOrName : String
  list : Bool

/-- What the handlers depend on: the configuration of the kernel and of the mount, and what the caller
may see. -/
structure XattrConfig where
  posixAcl : Bool
  security : Bool
  xattrUser : Bool
  capSysAdmin : Bool
  posixAclList : Bool

/-- `f2fs_xattr_handler`, by way of `f2fs_xattr_handler_map`. -/
def f2fsXattrHandler (cfg : XattrConfig) : ℕ → Option XattrHandler
  | 1 => some ⟨"user.", cfg.xattrUser⟩
  | 2 => if cfg.posixAcl then some ⟨"system.posix_acl_access", cfg.posixAclList⟩ else none
  | 3 => if cfg.posixAcl then some ⟨"system.posix_acl_default", cfg.posixAclList⟩ else none
  | 4 => some ⟨"trusted.", cfg.capSysAdmin⟩
  | 6 => if cfg.security then some ⟨"security.", true⟩ else none
  | 7 => some ⟨"system.advise", true⟩
  | _ => none

/-- The characters of a prefix. -/
def prefixBytes (s : String) : List Byte := s.toList.map fun c => BitVec.ofNat 8 c.toNat

/-- The loop of `f2fs_listxattr`: the size and the bytes so far, and what is left of the buffer. -/
def listXattrFrom (cfg : XattrConfig) (a : Area) (buffer : Bool) :
    ℕ → ℕ → ℕ → List Byte → ℤ → Except Errno (ℕ × List Byte)
  | 0, _, total, out, _ => .ok (total, out)
  | fuel + 1, entry, total, out, rest =>
      if isXattrLastEntry a entry then .ok (total, out)
      else
        match (f2fsXattrHandler cfg (eNameIndex a entry)).filter XattrHandler.list with
        | none => listXattrFrom cfg a buffer fuel (xattrNextEntry a entry) total out rest
        | some handler =>
            let pfx := prefixBytes handler.prefixOrName
            let size := pfx.length + eNameLen a entry + 1
            if buffer ∧ rest < size then .error .ERANGE
            else
              listXattrFrom cfg a buffer fuel (xattrNextEntry a entry) (total + size)
                (if buffer then out ++ (pfx ++ eName a entry ++ [0]) else out) (rest - size)

/-- `f2fs_listxattr`: the size of the list, and what was put into the buffer. -/
def f2fsListxattr (inlineSize : ℕ) (s : XattrInode) (env : XattrEnv) (cfg : XattrConfig)
    (buffer : Option ℕ) : Except Errno (ℕ × List Byte) :=
  match readAllXattrs inlineSize s { env with ipage := false } with
  | .error e => .error e
  | .ok a =>
      listXattrFrom cfg a buffer.isSome (txattrSize inlineSize) (xattrFirstEntry 0) 0 []
        (buffer.getD 0)

/-- The bytes of a new entry, up to the next word boundary. -/
def newEntry (index : ℕ) (name value : List Byte) : List Byte :=
  [BitVec.ofNat 8 index, BitVec.ofNat 8 name.length, leByte value.length 0, leByte value.length 1] ++
    name ++ value

/-- The last parts of `__f2fs_setxattr`; `last` is the end of the list. -/
def replaceXattr (inlineSize : ℕ) (s : XattrInode) (env : XattrEnv) (index : ℕ) (name : List Byte)
    (value : Option (List Byte)) (a : Area) (here last : ℕ) (found : Bool) :
    XattrInode × Option Errno :=
  -- 2. Remove old entry
  let next := xattrNextEntry a here
  let oldsize := entrySize a here
  let a₁ := if found then
    clear (memcpy a here a next (last - next)) (last - oldsize) oldsize else a
  let last₁ := if found then last - oldsize else last
  -- 3. Write new entry
  match value with
  | some value =>
      writeAllXattrs inlineSize s env (last₁ + xattrAlign (4 + name.length + value.length))
        (storeList a₁ last₁ (newEntry index name value))
  | none => writeAllXattrs inlineSize s env last₁ a₁

/-- `__f2fs_setxattr`, in the buffer. -/
def setxattrIn (inlineSize : ℕ) (s : XattrInode) (env : XattrEnv) (index : ℕ) (name : List Byte)
    (value : Option (List Byte)) (create replace : Bool) (a : Area) : XattrInode × Option Errno :=
  -- find entry with wanted name
  let here := findXattr inlineSize a 0 index name
  let found := !isXattrLastEntry a here
  let size := (value.getD []).length
  if found && create then (s, some .EEXIST)
  else if found && value.any (fun v => eValueSize a here == size && eValue a here == v) then (s, none)
  else if !found && replace then (s, some .ENODATA)
  else
    let last := lastXattrFrom a (txattrSize inlineSize) here
    let newsize := xattrAlign (4 + name.length + size)
    -- 1. Check space
    let free : ℤ := (minOffset inlineSize : ℤ) - last + if found then entrySize a here else 0
    if value.isSome && decide (free < newsize) then (s, some .E2BIG)
    else replaceXattr inlineSize s env index name value a here last found

/-- `__f2fs_setxattr`; without a value the attribute is removed.  `create` and `replace` are the
flags. -/
def setxattr (inlineSize : ℕ) (s : XattrInode) (env : XattrEnv) (index : ℕ)
    (name : Option (List Byte)) (value : Option (List Byte)) (create replace : Bool) :
    XattrInode × Option Errno :=
  match name with
  | none => (s, some .EINVAL)
  | some name =>
      if f2fsNameLen < name.length then (s, some .ERANGE)
      else if maxValueLen inlineSize < (value.getD []).length then (s, some .E2BIG)
      else
        match readAllXattrs inlineSize s env with
        | .error e => (s, some e)
        | .ok a => setxattrIn inlineSize s env index name value create replace a

/-- `f2fs_setxattr`. -/
def f2fsSetxattr (inlineSize : ℕ) (s : XattrInode) (env : XattrEnv) (index : ℕ)
    (name : Option (List Byte)) (value : Option (List Byte)) (create replace : Bool) :
    XattrInode × Option Errno :=
  match env.dquot with
  | some e => (s, some e)
  | none => setxattr inlineSize s env index name value create replace

/-! ## Steps -/

/-- An inode with its attributes, and what was set last under each index and name. -/
structure XattrState where
  inode : XattrInode
  attrs : ℕ → List Byte → Option (List Byte)

/-- One `f2fs_setxattr`. -/
structure SetCall where
  env : XattrEnv
  index : ℕ
  name : Option (List Byte)
  value : Option (List Byte)
  create : Bool
  replace : Bool

/-- The call on the stored attributes. -/
def SetCall.run (inlineSize : ℕ) (c : SetCall) (s : XattrInode) : XattrInode × Option Errno :=
  f2fsSetxattr inlineSize s c.env c.index c.name c.value c.create c.replace

/-- A call that succeeds sets the attribute or removes it. -/
def xattrStep (inlineSize : ℕ) (x : XattrState) (c : SetCall) : Option XattrState :=
  match c.run inlineSize x.inode, c.name with
  | (s, none), some name =>
      some ⟨s, Function.update x.attrs c.index (Function.update (x.attrs c.index) name c.value)⟩
  | (s, _), _ => some ⟨s, x.attrs⟩

/-- A new inode. -/
def newInode : XattrState := ⟨⟨fun _ => 0, none⟩, fun _ _ => none⟩

end Hoit.Xattr
