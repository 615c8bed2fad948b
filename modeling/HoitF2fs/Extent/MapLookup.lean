import HoitF2fs.Extent.Sound
import HoitF2fs.Node.NodePath
import HoitF2fs.Nvm.Dio

/-!
# Looking up an extent of a file

Without `create`, `f2fs_map_blocks` reports the run of blocks that starts at `m_lblk`.  It looks into
the extent cache first, and then goes through the dnodes of the file one by one; a run may cross the
end of a dnode.  With `F2FS_GET_BLOCK_PRECACHE` it also tells the cache, **at the end of every dnode
and at the end of the run**, what it has seen since the dnode began.

* `FileMap` — a file: which of its nodes there are, and the addresses in them.
* `nextBlock` — what is done with one block; `dnodeLoop` — with one dnode; `nextDnode` — the loop over
  the dnodes, which is given fuel.
* `TrueLookup` — what a result has to be: the blocks lie where it says, `m_next_pgofs` skips no
  block, and what went into the cache is right.

**The result is true unless the run ends in a bad place** (`BadBreak`).  For `PRECACHE` that is the
end of a dnode: the next one is entered, contributes nothing, and leaves an extent of length 0 in the
cache.  For `BMAP` it is a hole, which clears the address of a run that is already there.
`map_blocks_true_iff` says so for every file and request, and that the loop ends.
-/

namespace Hoit.MapLookup

open NodePath Word32

variable {l : Layout}

/-! ## Files -/

/-- A file, with its nodes by their numbers and the address slots by the blocks they are for. -/
structure FileMap (l : Layout) where
  lay : AddrLayout
  hasInlineData : Bool
  /-- The node has an id in its parent. -/
  present : ℕ → Bool
  /-- Reading the node fails. -/
  readError : ℕ → Bool
  addr : ℕ → BitVec 32
  addr_ok : ∀ b, IsValidBlkaddr (addr b) → ExtentInMain l (addr b) 1
  newAddr_outside : l.mainBlkaddr + l.segmentCountMain * blocksPerSeg < newAddr.toNat
  /-- Inline data begins at the second slot. -/
  inline_null : hasInlineData = true → addr 0 = nullAddr

/-- What `f2fs_get_dnode_of_data` returns with `LOOKUP_NODE`. -/
inductive DnodeOfData where
  | error
  | enoent (curLevel maxLevel : ℕ)
  | found (ofsInNode endOffset : ℕ)

/-- One of the first `k` nodes of a path, the inode apart, cannot be read. -/
def FileMap.unreadable (f : FileMap l) (p : Path) (k : ℕ) : Bool :=
  (List.range' 1 k).any fun i => f.readError (p.noffset.getD i 0)

/-- `f2fs_get_dnode_of_data`: the inode and then the nodes of the path are read. -/
def FileMap.getDnodeOfData (f : FileMap l) (index : ℕ) : DnodeOfData :=
  match getNodePath f.lay index with
  | none => .error
  | some p =>
      if f.readError 0 then .error
      else
        match lookupHole f.hasInlineData f.present p index with
        | some cur =>
            if f.unreadable p (cur - 1) then .error else .enoent cur p.level
        | none =>
            if f.unreadable p p.level then .error
            else .found p.ofsInNode (addrsPerPage f.lay p.level)

/-- All nodes on the way to the slot of block `b` are there. -/
def FileMap.Reached (f : FileMap l) (b : ℕ) : Prop :=
  f.hasInlineData = false ∧
    ∃ p, getNodePath f.lay b = some p ∧ lookupHole false f.present p b = none

/-- **Block `b` of the file is block `a` of the device.** -/
def FileMap.MapsTo (f : FileMap l) (b : ℕ) (a : BitVec 32) : Prop :=
  f.Reached b ∧ f.addr b = a ∧ IsValidBlkaddr a

def FileMap.IsMapped (f : FileMap l) (b : ℕ) : Prop := f.MapsTo b (f.addr b)

/-- Block `b` has been preallocated. -/
def FileMap.Reserved (f : FileMap l) (b : ℕ) : Prop := f.Reached b ∧ f.addr b = newAddr

/-! ## `f2fs_map_blocks` -/

/-- The flags that are used without `create`. -/
inductive LookupFlag where
  | default
  | fiemap
  | bmap
  | precache
deriving DecidableEq

/-- `map`, what is written through its two pointers, and the arguments of the calls of
`f2fs_update_extent_cache_range`. -/
structure LookupResult extends MapBlocks where
  nextPgofs : Option ℕ
  nextExtent : Option ℕ
  recorded : List Extent.ExtentInfo
deriving DecidableEq

inductive BlockStep where
  | syncOut (m : LookupResult)
  | go (m : LookupResult)

/-- From `next_block` to `skip`. -/
def nextBlock (f : FileMap l) (flag : LookupFlag) (pgofs : ℕ) (m : LookupResult) : BlockStep :=
  let blkaddr := f.addr pgofs
  if ¬ IsValidBlkaddr blkaddr ∧ flag = .bmap then
    .syncOut { m with pblk := nullAddr }
  else if ¬ IsValidBlkaddr blkaddr ∧ flag = .precache then
    .syncOut m
  else if ¬ IsValidBlkaddr blkaddr ∧ flag = .fiemap ∧ blkaddr = nullAddr then
    .syncOut { m with nextPgofs := some (pgofs + 1) }
  else if ¬ IsValidBlkaddr blkaddr ∧ flag ≠ .fiemap then
    .syncOut { m with nextPgofs := some (pgofs + 1) }
  else
    match m.addBlock blkaddr with
    | some m' => .go { m with toMapBlocks := m' }
    | none => .syncOut m

/-- The blocks of one dnode, which has `left` behind the one at `pgofs`: where the loop stops, and
whether it goes on to the next dnode. -/
def dnodeLoop (f : FileMap l) (flag : LookupFlag) (stop : ℕ) :
    ℕ → ℕ → LookupResult → ℕ × LookupResult × Bool
  | 0, pgofs, m =>
      match nextBlock f flag pgofs m with
      | .syncOut m' => (pgofs, m', false)
      | .go m' => (pgofs + 1, m', decide (pgofs + 1 < stop))
  | left + 1, pgofs, m =>
      match nextBlock f flag pgofs m with
      | .syncOut m' => (pgofs, m', false)
      | .go m' =>
          if stop ≤ pgofs + 1 then (pgofs + 1, m', false)
          else dnodeLoop f flag stop left (pgofs + 1) m'

/-- The block for `F2FS_GET_BLOCK_PRECACHE`, which the source has both behind a dnode and at
`sync_out`. -/
def record (flag : LookupFlag) (lblk startPgofs : ℕ) (m : LookupResult) : LookupResult :=
  if flag = .precache ∧ m.flags.mapped = true then
    let ofs := sub32 startPgofs lblk
    { m with
      recorded := m.recorded ++ [⟨startPgofs, sub32 m.len ofs, m.pblk + BitVec.ofNat 32 ofs⟩] }
  else m

/-- `next_dnode`.  The first component of the result is whether an error is returned. -/
def nextDnode (f : FileMap l) (flag : LookupFlag) (lblk stop : ℕ) :
    (fuel : ℕ) → ℕ → LookupResult → Option (Bool × LookupResult)
  | 0, _, _ => none
  | fuel + 1, pgofs, m =>
      match f.getDnodeOfData pgofs with
      | .error => some (true, if flag = .bmap then { m with pblk := nullAddr } else m)
      | .enoent cur max =>
          let next := f2fsGetNextPageOffset f.lay cur max pgofs
          let m := if flag = .bmap then { m with pblk := nullAddr } else m
          some (false, { m with nextPgofs := some next, nextExtent := some next })
      | .found ofsInNode endOffset =>
          let (pgofs', m', goOn) :=
            dnodeLoop f flag stop (endOffset - ofsInNode - 1) pgofs m
          let m' := record flag lblk pgofs m'
          if goOn then nextDnode f flag lblk stop fuel pgofs' m'
          else
            some (false, if flag = .precache then { m' with nextExtent := some (pgofs' + 1) } else m')

/-- `f2fs_lookup_extent_cache`; `may` is `f2fs_may_extent_tree`. -/
def f2fsLookupExtentCache (cache : Extent.ExtentCache) (ino : ℕ) (may : Bool) (pgofs : ℕ) :
    Option Extent.ExtentInfo :=
  if may then (cache.f2fsLookupExtentTree ino pgofs).map Prod.fst else none

/-- `f2fs_map_blocks` without `create`; `pblk` is what `m_pblk` was before. -/
def f2fsMapBlocks (f : FileMap l) (cached : Option Extent.ExtentInfo) (flag : LookupFlag)
    (pblk : BitVec 32) (lblk maxblocks fuel : ℕ) : Option (Bool × LookupResult) :=
  let m : LookupResult := ⟨⟨pblk, 0, ⟨false, false, false⟩⟩, none, none, []⟩
  if maxblocks = 0 then some (false, m)
  else
    match cached with
    | some ei =>
        let len := min maxblocks (ei.stop - lblk)
        some (false, { m with
          pblk := ei.addr lblk
          len
          flags := ⟨false, true, false⟩
          nextExtent := some (lblk + len) })
    | none => nextDnode f flag lblk (lblk + maxblocks) fuel lblk m

/-! ## What is wanted -/

/-- The blocks of an extent lie where it says. -/
def FileMap.Agrees (f : FileMap l) (ei : Extent.ExtentInfo) : Prop :=
  ∀ b, ei.has b = true → f.MapsTo b (ei.addr b)

def GoodRecord (f : FileMap l) (ei : Extent.ExtentInfo) : Prop := 0 < ei.len ∧ f.Agrees ei

/-- **What a result has to be.** -/
structure TrueLookup (f : FileMap l) (flag : LookupFlag) (lblk maxblocks : ℕ) (err : Bool)
    (m : LookupResult) : Prop where
  extent : err = false → 0 < m.len → m.len ≤ maxblocks ∧
    ((∀ i < m.len, f.MapsTo (lblk + i) (m.pblk + BitVec.ofNat 32 i)) ∨
      flag = .fiemap ∧ ∀ i < m.len, f.Reserved (lblk + i))
  next : ∀ n ∈ m.nextPgofs, ∀ b, lblk + m.len ≤ b → b < n → ¬ f.IsMapped b
  recorded : ∀ ei ∈ m.recorded, GoodRecord f ei

/-- The extents that the cache has for the file are right. -/
structure CacheSound (f : FileMap l) (cache : Extent.ExtentCache) (ino : ℕ) : Prop where
  largest : ∀ t, cache.trees ino = some t → f.Agrees t.largest
  nodes : ∀ t, cache.trees ino = some t → ∀ n ∈ t.nodes, f.Agrees n.ei

/-- The dnode of block `b` can be read. -/
def FileMap.Found (f : FileMap l) (b : ℕ) : Prop :=
  ∃ ofsInNode endOffset, f.getDnodeOfData b = .found ofsInNode endOffset

/-- The `j` blocks from `lblk` on lie one behind the other, in dnodes that can be read. -/
def FileMap.RunTo (f : FileMap l) (lblk j : ℕ) : Prop :=
  ∀ i < j, f.Found (lblk + i) ∧ f.MapsTo (lblk + i) (f.addr lblk + BitVec.ofNat 32 i)

/-- There is no address for block `b`, and no error either. -/
def FileMap.Hole (f : FileMap l) (b : ℕ) : Prop :=
  (∃ cur max, f.getDnodeOfData b = .enoent cur max) ∨ f.Found b ∧ ¬ IsValidBlkaddr (f.addr b)

/-- Block `b` has the last slot of its dnode. -/
def FileMap.LastInDnode (f : FileMap l) (b : ℕ) : Prop :=
  ∃ p, getNodePath f.lay b = some p ∧ p.ofsInNode + 1 = addrsPerPage f.lay p.level

/-- The run from `lblk` ends before its block `j`, and this is a bad place. -/
def BadAt (f : FileMap l) (flag : LookupFlag) (lblk j : ℕ) : Prop :=
  match flag with
  | .bmap => f.Hole (lblk + j)
  | .precache => f.LastInDnode (lblk + j - 1) ∧ f.Found (lblk + j) ∧
      f.addr (lblk + j) ≠ f.addr lblk + BitVec.ofNat 32 j
  | _ => False

/-- **When a lookup goes wrong**: the run ends in a bad place inside the request. -/
def BadBreak (f : FileMap l) (flag : LookupFlag) (lblk maxblocks : ℕ) : Prop :=
  ∃ j, 0 < j ∧ j < maxblocks ∧ f.RunTo lblk j ∧ BadAt f flag lblk j

/-! ## The blocks of a dnode -/

section Dnode

variable {f : FileMap l} {b k o e : ℕ}

/-- **When a dnode is found.** -/
lemma getDnodeOfData_eq_found_iff : f.getDnodeOfData b = .found o e ↔
    ∃ p, getNodePath f.lay b = some p ∧ f.readError 0 = false ∧
      lookupHole f.hasInlineData f.present p b = none ∧
      f.unreadable p p.level = false ∧
      p.ofsInNode = o ∧ addrsPerPage f.lay p.level = e := by
  rw [FileMap.getDnodeOfData]
  cases hpath : getNodePath f.lay b with
  | none => simp
  | some p =>
      cases hroot : f.readError 0 with
      | true => simp
      | false =>
          cases hhole : lookupHole f.hasInlineData f.present p b with
          | some cur =>
              simp only [Bool.false_eq_true, if_false, Option.some.injEq, exists_eq_left', hhole,
                reduceCtorEq, false_and, and_false, iff_false]
              split <;> simp
          | none =>
              cases hread : f.unreadable p p.level with
              | true => simp [hhole, hread]
              | false => simp [hhole, hread]

/-- **Where a node is missing.** -/
lemma enoent_spec {cur max : ℕ} (h : f.getDnodeOfData b = .enoent cur max) :
    ∃ p, getNodePath f.lay b = some p ∧ lookupHole f.hasInlineData f.present p b = some cur ∧
      p.level = max := by
  rw [FileMap.getDnodeOfData] at h
  cases hpath : getNodePath f.lay b with
  | none => simp [hpath] at h
  | some p =>
      cases hroot : f.readError 0 with
      | true => simp [hpath, hroot] at h
      | false =>
          cases hhole : lookupHole f.hasInlineData f.present p b with
          | some cur' =>
              simp only [hpath, hroot, hhole, Bool.false_eq_true, if_false] at h
              split at h
              · exact absurd h (by simp)
              · obtain ⟨rfl, rfl⟩ := DnodeOfData.enoent.inj h
                exact ⟨p, rfl, hhole, rfl⟩
          | none =>
              simp only [hpath, hroot, hhole, Bool.false_eq_true, if_false] at h
              split at h <;> exact absurd h (by simp)

/-- The slot of a block lies in its dnode. -/
lemma found_lt (h : f.getDnodeOfData b = .found o e) : o < e := by
  obtain ⟨p, hpath, -, -, -, rfl, rfl⟩ := getDnodeOfData_eq_found_iff.mp h
  exact (getNodePath_eq_some_iff.mp hpath).ofs_lt

/-- The following slots of a dnode belong to the following blocks. -/
lemma found_add (hinline : f.hasInlineData = false) (h : f.getDnodeOfData b = .found o e)
    (hk : o + k < e) : f.getDnodeOfData (b + k) = .found (o + k) e := by
  obtain ⟨p, hpath, hroot, hhole, hread, rfl, rfl⟩ := getDnodeOfData_eq_found_iff.mp h
  obtain ⟨p', hp', hlevel, hnoffset, hofs⟩ := (getNodePath_eq_some_iff.mp hpath).add hk
  refine getDnodeOfData_eq_found_iff.mpr
    ⟨p', getNodePath_eq_some_iff.mpr hp', hroot, ?_, ?_, hofs, by rw [hlevel]⟩
  · rw [hinline] at hhole ⊢
    rw [lookupHole_false hlevel hnoffset, hhole]
  · rw [← hread, FileMap.unreadable, FileMap.unreadable, hlevel, hnoffset]

lemma reached_of_found (hinline : f.hasInlineData = false) (h : f.Found b) : f.Reached b := by
  obtain ⟨o, e, h⟩ := h
  obtain ⟨p, hpath, -, hhole, -⟩ := getDnodeOfData_eq_found_iff.mp h
  rw [hinline] at hhole
  exact ⟨hinline, p, hpath, hhole⟩

/-- A file with inline data is found at its first block only, where there is no address. -/
lemma found_inline (hinline : f.hasInlineData = true) (h : f.Found b) : b = 0 := by
  obtain ⟨o, e, h⟩ := h
  obtain ⟨p, -, -, hhole, -⟩ := getDnodeOfData_eq_found_iff.mp h
  by_contra hb
  rw [lookupHole, if_pos ⟨hinline, hb⟩] at hhole
  exact absurd hhole (by simp)

lemma last_iff (h : f.getDnodeOfData b = .found o e) : f.LastInDnode b ↔ o + 1 = e := by
  obtain ⟨p, hpath, -, -, -, rfl, rfl⟩ := getDnodeOfData_eq_found_iff.mp h
  rw [FileMap.LastInDnode, hpath]
  simp

lemma lt_of_found (h : f.Found b) : b < 2 ^ 31 := by
  obtain ⟨o, e, h⟩ := h
  obtain ⟨p, hpath, -⟩ := getDnodeOfData_eq_found_iff.mp h
  exact lt_of_path hpath

/-- **Nothing is mapped up to the offset that is given for a missing node.** -/
lemma enoent_next {cur max : ℕ} (h : f.getDnodeOfData b = .enoent cur max) {c : ℕ} (hbc : b ≤ c)
    (hc : c < f2fsGetNextPageOffset f.lay cur max b) : ¬ f.Reached c := by
  obtain ⟨p, hpath, hhole, rfl⟩ := enoent_spec h
  rintro ⟨hinline, p', hp', hreach⟩
  rw [hinline] at hhole
  obtain ⟨hpos, hle⟩ := lookupHole_level hhole
  have hof := getNodePath_eq_some_iff.mp hpath
  have hlen := (hof.leadsToDnode addrsPerInode_le).noffset_length
  -- the missing node is on the path of `c` too
  have hbelow : Below f.lay (p.noffset.getD cur 0) c := by
    by_contra hnot
    rcases hbc.eq_or_lt with rfl | hlt
    · refine hnot ⟨p, hpath, ?_⟩
      rw [List.getD_eq_getElem?_getD, List.getElem?_eq_getElem (by omega), Option.getD_some]
      exact List.getElem_mem _
    · exact absurd ((hof.nextExact hpos hle).least.2 ⟨hlt, hnot⟩) (not_le.mpr hc)
  obtain ⟨p'', hp'', hmem⟩ := hbelow
  obtain rfl : p' = p'' := Option.some.inj (hp'.symm.trans hp'')
  obtain ⟨i, hi, hile, heq⟩ := (getNodePath_eq_some_iff.mp hp').mem_noffset hmem
    (hof.noffset_ne_zero hpos hle)
  rw [lookupHole, if_neg (by simp)] at hhole hreach
  have habsent := List.find?_some hhole
  have hpresent := List.find?_eq_none.mp hreach i (List.mem_range'_1.mpr ⟨hi, by omega⟩)
  rw [heq] at hpresent
  exact hpresent habsent

end Dnode

/-! ## The run -/

section Run

variable {f : FileMap l} {flag : LookupFlag} {lblk pgofs stop : ℕ} {m m' : LookupResult}

/-- **The state of the loops**: the blocks below `pgofs` belong to the run. -/
structure RunInv (f : FileMap l) (flag : LookupFlag) (lblk pgofs : ℕ) (m : LookupResult) :
    Prop where
  len : lblk + m.len = pgofs
  extent : (∀ i < m.len, f.Found (lblk + i) ∧ f.MapsTo (lblk + i) (m.pblk + BitVec.ofNat 32 i)) ∨
    flag = .fiemap ∧ m.pblk = newAddr ∧ ∀ i < m.len, f.Reserved (lblk + i)
  mapped : m.flags.mapped = decide (0 < m.len)
  next : m.nextPgofs = none
  recorded : ∀ ei ∈ m.recorded, GoodRecord f ei

lemma add_ofNat_succ (a : BitVec 32) (k : ℕ) :
    a + BitVec.ofNat 32 (k + 1) = a + BitVec.ofNat 32 k + 1#32 := by
  rw [BitVec.ofNat_add, BitVec.add_assoc]

/-- The address behind a block is neither of the two special ones. -/
lemma valid_succ {b : ℕ} {a : BitVec 32} (h : f.MapsTo b a) : IsValidBlkaddr (a + 1#32) := by
  obtain ⟨-, rfl, hvalid⟩ := h
  have hmain := (f.addr_ok b hvalid).2
  have hout := f.newAddr_outside
  have hnew : newAddr.toNat = 2 ^ 32 - 1 := rfl
  have hnat : (f.addr b + 1#32).toNat = (f.addr b).toNat + 1 := by
    rw [BitVec.toNat_add, show (1#32).toNat = 1 from rfl, Nat.mod_eq_of_lt (by omega)]
  refine ⟨fun heq => ?_, fun heq => ?_⟩
  · rw [heq] at hnat
    exact absurd hnat (by simp [nullAddr])
  · rw [heq] at hnat
    omega

lemma not_valid_newAddr : ¬ IsValidBlkaddr newAddr := fun h => h.2 rfl

lemma not_valid_nullAddr : ¬ IsValidBlkaddr nullAddr := fun h => h.1 rfl

/-- A run that has begun is not followed by a special address. -/
lemma RunInv.behind (hinv : RunInv f flag lblk pgofs m) (hpos : 0 < m.len)
    (hne : m.pblk ≠ newAddr) : IsValidBlkaddr (m.pblk + BitVec.ofNat 32 m.len) := by
  rcases hinv.extent with hmaps | ⟨-, hnew, -⟩
  · obtain ⟨k, hk⟩ := Nat.exists_eq_succ_of_ne_zero hpos.ne'
    rw [hk, add_ofNat_succ]
    exact valid_succ (hmaps k (by omega)).2
  · exact absurd hnew hne

/-- The first address of a run is not a special one, unless blocks that are reserved count. -/
lemma RunInv.pblk_eq (hinv : RunInv f flag lblk pgofs m) (hpos : 0 < m.len)
    (hflag : flag ≠ .fiemap) : m.pblk = f.addr lblk ∧ IsValidBlkaddr m.pblk := by
  rcases hinv.extent with hmaps | ⟨heq, -⟩
  · obtain ⟨-, -, haddr, hvalid⟩ := hmaps 0 hpos
    rw [Nat.add_zero, BitVec.add_zero] at haddr
    rw [BitVec.add_zero] at hvalid
    exact ⟨haddr.symm, hvalid⟩
  · exact absurd heq hflag

lemma RunInv.runTo (hinv : RunInv f flag lblk pgofs m) (hflag : flag ≠ .fiemap) :
    f.RunTo lblk m.len := by
  intro i hi
  rw [← (hinv.pblk_eq (Nat.zero_lt_of_lt hi) hflag).1]
  rcases hinv.extent with hmaps | ⟨heq, -⟩
  · exact hmaps i hi
  · exact absurd heq hflag

/-- **A block that is taken continues the run.** -/
lemma RunInv.go (hinv : RunInv f flag lblk pgofs m) (hinline : f.hasInlineData = false)
    (hfound : f.Found pgofs) (h : nextBlock f flag pgofs m = .go m') :
    RunInv f flag lblk (pgofs + 1) m' := by
  have hreach := reached_of_found hinline hfound
  have hlen := hinv.len
  rw [nextBlock] at h
  split_ifs at h with h1 h2 h3 h4
  -- the address, if it is a special one, is that of a reserved block
  have hspecial : ¬ IsValidBlkaddr (f.addr pgofs) → flag = .fiemap ∧ f.addr pgofs = newAddr := by
    intro hnot
    have hfie : flag = .fiemap := by
      by_contra hne
      exact h4 ⟨hnot, hne⟩
    refine ⟨hfie, ?_⟩
    by_contra hne
    exact hnot ⟨fun hnull => h3 ⟨hnot, hfie, hnull⟩, hne⟩
  cases hadd : m.addBlock (f.addr pgofs) with
  | none =>
      rw [hadd] at h
      exact absurd h (by simp)
  | some m₁ =>
      rw [hadd] at h
      obtain rfl := BlockStep.go.inj h
      rw [MapBlocks.addBlock] at hadd
      split_ifs at hadd with hzero hcont
      · obtain rfl := Option.some.inj hadd
        obtain rfl : lblk = pgofs := by omega
        refine ⟨rfl, ?_, by simp, hinv.next, hinv.recorded⟩
        by_cases hvalid : IsValidBlkaddr (f.addr lblk)
        · refine Or.inl fun i hi => ?_
          obtain rfl : i = 0 := Nat.lt_one_iff.mp hi
          exact ⟨hfound, hreach, (BitVec.add_zero _).symm, by rwa [BitVec.add_zero]⟩
        · obtain ⟨hfie, hnew⟩ := hspecial hvalid
          refine Or.inr ⟨hfie, hnew, fun i hi => ?_⟩
          obtain rfl : i = 0 := Nat.lt_one_iff.mp hi
          exact ⟨hreach, hnew⟩
      · obtain rfl := Option.some.inj hadd
        have hpos := Nat.pos_of_ne_zero hzero
        refine ⟨by simp only; omega, ?_, ?_, hinv.next, hinv.recorded⟩
        · rcases hcont with ⟨hne, haddr⟩ | ⟨hnew, haddr⟩
          · have hvalid := hinv.behind hpos hne
            refine Or.inl fun i hi => ?_
            rcases Nat.lt_succ_iff_lt_or_eq.mp hi with hlt | rfl
            · rcases hinv.extent with hmaps | ⟨-, hnew, -⟩
              · exact hmaps i hlt
              · exact absurd hnew hne
            · rw [hlen]
              exact ⟨hfound, hreach, haddr, hvalid⟩
          · rcases hinv.extent with hmaps | ⟨hfie, -, hres⟩
            · have hvalid := (hmaps 0 hpos).2.2.2
              rw [hnew, BitVec.add_zero] at hvalid
              exact absurd hvalid not_valid_newAddr
            · refine Or.inr ⟨hfie, hnew, fun i hi => ?_⟩
              rcases Nat.lt_succ_iff_lt_or_eq.mp hi with hlt | rfl
              · exact hres i hlt
              · rw [hlen]
                exact ⟨hreach, haddr⟩
        · rw [hinv.mapped]
          simp [hpos]

/-- **A block that is not taken**: what is done to the result, flag by flag. -/
lemma RunInv.halt (hinv : RunInv f flag lblk pgofs m) (h : nextBlock f flag pgofs m = .syncOut m') :
    (flag = .bmap ∧ ¬ IsValidBlkaddr (f.addr pgofs) ∧ m' = { m with pblk := nullAddr }) ∨
    (m' = m ∧ (flag = .bmap → IsValidBlkaddr (f.addr pgofs)) ∧
      (flag ≠ .fiemap → ¬ (IsValidBlkaddr (f.addr pgofs) ∧
        (0 < m.len → f.addr pgofs = m.pblk + BitVec.ofNat 32 m.len)))) ∨
    (flag ≠ .bmap ∧ flag ≠ .precache ∧ ¬ IsValidBlkaddr (f.addr pgofs) ∧
      m' = { m with nextPgofs := some (pgofs + 1) }) := by
  rw [nextBlock] at h
  split_ifs at h with h1 h2 h3 h4
  · exact Or.inl ⟨h1.2, h1.1, (BlockStep.syncOut.inj h).symm⟩
  · refine Or.inr (Or.inl ⟨(BlockStep.syncOut.inj h).symm, ?_, fun _ hnext => h2.1 hnext.1⟩)
    rw [h2.2]
    exact fun heq => absurd heq (by simp)
  · refine Or.inr (Or.inr ⟨?_, ?_, h3.1, (BlockStep.syncOut.inj h).symm⟩)
    · rw [h3.2.1]
      simp
    · rw [h3.2.1]
      simp
  · exact Or.inr (Or.inr ⟨fun heq => h1 ⟨h4.1, heq⟩, fun heq => h2 ⟨h4.1, heq⟩, h4.1,
      (BlockStep.syncOut.inj h).symm⟩)
  · cases hadd : m.addBlock (f.addr pgofs) with
    | some m₁ =>
        rw [hadd] at h
        exact absurd h (by simp)
    | none =>
        rw [hadd] at h
        refine Or.inr (Or.inl ⟨(BlockStep.syncOut.inj h).symm, fun heq => ?_, ?_⟩)
        · by_contra hnot
          exact h1 ⟨hnot, heq⟩
        · rintro hflag ⟨hvalid, hnext⟩
          rw [MapBlocks.addBlock] at hadd
          split_ifs at hadd with hzero hcont
          have hpos := Nat.pos_of_ne_zero hzero
          exact hcont (Or.inl ⟨(hinv.pblk_eq hpos hflag).2.2, hnext hpos⟩)

/-- **How the loop over the blocks of a dnode ends**: with the dnode, with the request, or at a block
that is not taken. -/
inductive DnodeEnd (f : FileMap l) (flag : LookupFlag) (lblk stop left pgofs : ℕ) :
    ℕ × LookupResult × Bool → Prop where
  | dnode (m : LookupResult) (hmore : pgofs + left + 1 < stop)
      (hinv : RunInv f flag lblk (pgofs + left + 1) m) :
      DnodeEnd f flag lblk stop left pgofs (pgofs + left + 1, m, true)
  | request (m : LookupResult) (hfrom : pgofs < stop) (hto : stop ≤ pgofs + left + 1)
      (hinv : RunInv f flag lblk stop m) : DnodeEnd f flag lblk stop left pgofs (stop, m, false)
  | block (k : ℕ) (m m' : LookupResult) (hk : k ≤ left) (hmore : pgofs + k < stop)
      (hinv : RunInv f flag lblk (pgofs + k) m)
      (hstop : nextBlock f flag (pgofs + k) m = .syncOut m') :
      DnodeEnd f flag lblk stop left pgofs (pgofs + k, m', false)

lemma dnodeLoop_spec {left : ℕ} (hinline : f.hasInlineData = false)
    (hfound : ∀ k ≤ left, f.Found (pgofs + k)) (hlt : pgofs < stop)
    (hinv : RunInv f flag lblk pgofs m) :
    DnodeEnd f flag lblk stop left pgofs (dnodeLoop f flag stop left pgofs m) := by
  induction left generalizing pgofs m with
  | zero =>
      rw [dnodeLoop]
      cases hstep : nextBlock f flag pgofs m with
      | syncOut m' => exact .block 0 m m' le_rfl hlt hinv hstep
      | go m' =>
          have hinv' := hinv.go hinline (hfound 0 le_rfl) hstep
          by_cases hmore : pgofs + 1 < stop
          · simp only [hmore, decide_true]
            exact .dnode m' hmore hinv'
          · simp only [hmore, decide_false]
            obtain rfl : pgofs + 1 = stop := by omega
            exact .request m' hlt le_rfl hinv'
  | succ left ih =>
      rw [dnodeLoop]
      cases hstep : nextBlock f flag pgofs m with
      | syncOut m' => exact .block 0 m m' (Nat.zero_le _) hlt hinv hstep
      | go m' =>
          have hinv' := hinv.go hinline (hfound 0 (Nat.zero_le _)) hstep
          simp only []
          split_ifs with hend
          · obtain rfl : pgofs + 1 = stop := by omega
            exact .request m' hlt (by omega) hinv'
          · have hfound' : ∀ k ≤ left, f.Found (pgofs + 1 + k) := by
              intro k hk
              have hnext := hfound (k + 1) (by omega)
              rwa [← Nat.add_assoc, Nat.add_right_comm] at hnext
            have hends := ih hfound' (by omega) hinv'
            generalize dnodeLoop f flag stop left (pgofs + 1) m' = r at hends
            cases hends with
            | dnode m hmore hinv =>
                rw [show pgofs + 1 + left + 1 = pgofs + (left + 1) + 1 by omega] at hmore hinv ⊢
                exact .dnode m hmore hinv
            | request m hfrom hto hinv => exact .request m hlt (by omega) hinv
            | block k m m' hk hmore hinv hstop =>
                rw [show pgofs + 1 + k = pgofs + (k + 1) by omega] at hmore hinv hstop ⊢
                exact .block (k + 1) m m' (by omega) hmore hinv hstop

/-- The same for any dnode that is found. -/
lemma dnodeLoop_end {o e : ℕ} (hfound : f.getDnodeOfData pgofs = .found o e) (hlt : pgofs < stop)
    (hinv : RunInv f flag lblk pgofs m) :
    DnodeEnd f flag lblk stop (e - o - 1) pgofs (dnodeLoop f flag stop (e - o - 1) pgofs m) := by
  have hoe := found_lt hfound
  cases hinline : f.hasInlineData with
  | false =>
      refine dnodeLoop_spec hinline (fun k hk => ?_) hlt hinv
      exact ⟨o + k, e, found_add hinline hfound (by omega)⟩
  | true =>
      obtain rfl := found_inline hinline ⟨o, e, hfound⟩
      have hnull := f.inline_null hinline
      have hnot : ¬ IsValidBlkaddr (f.addr 0) := hnull ▸ not_valid_nullAddr
      have hhalt : ∃ m', nextBlock f flag 0 m = .syncOut m' := by
        rw [nextBlock, hnull]
        cases flag <;> exact ⟨_, by simp [not_valid_nullAddr]; rfl⟩
      obtain ⟨m', hstep⟩ := hhalt
      have hrun : dnodeLoop f flag stop (e - o - 1) 0 m = (0, m', false) := by
        cases e - o - 1 with
        | zero => rw [dnodeLoop, hstep]
        | succ left => rw [dnodeLoop, hstep]
      rw [hrun]
      exact .block 0 m m' (Nat.zero_le _) hlt hinv hstep

/-! ### Records -/

/-- **What is recorded behind a dnode that has given a block is right.** -/
lemma RunInv.record {start : ℕ} (hinv : RunInv f flag lblk pgofs m) (hle : lblk ≤ start)
    (hlt : start < pgofs) : RunInv f flag lblk pgofs (record flag lblk start m) := by
  rw [MapLookup.record]
  split_ifs with hcond
  · have hlen := hinv.len
    have hfit : pgofs < 2 ^ 32 := by
      have hlast := (hinv.runTo (by rw [hcond.1]; simp) (m.len - 1) (by omega)).1
      have := lt_of_found hlast
      omega
    have hofs : sub32 start lblk = start - lblk := sub32_of_le hle (by omega)
    have hrec : sub32 m.len (start - lblk) = pgofs - start :=
      sub32_eq (by omega) (by omega)
    refine ⟨hinv.len, hinv.extent, hinv.mapped, hinv.next, fun ei hei => ?_⟩
    rcases List.mem_append.mp hei with hold | hnew
    · exact hinv.recorded ei hold
    · rw [List.mem_singleton.mp hnew, hofs, hrec]
      refine ⟨Nat.sub_pos_of_lt hlt, fun b hb => ?_⟩
      rw [Extent.ExtentInfo.has_iff] at hb
      obtain ⟨hfrom, hto⟩ : start ≤ b ∧ b < start + (pgofs - start) := hb
      rcases hinv.extent with hmaps | ⟨hfie, -⟩
      · have hblock := (hmaps (b - lblk) (by omega)).2
        rw [show lblk + (b - lblk) = b by omega] at hblock
        rw [Extent.ExtentInfo.addr, BitVec.add_assoc, ← BitVec.ofNat_add,
          show start - lblk + (b - start) = b - lblk by omega]
        exact hblock
      · rw [hfie] at hcond
        exact absurd hcond.1 (by simp)
  · exact hinv

/-! ### Where a run ends badly -/

lemma BadAt.not_runTo {j : ℕ} (h : BadAt f flag lblk j) : ¬ f.RunTo lblk (j + 1) := by
  intro hrun
  obtain ⟨⟨o, e, hfound⟩, -, haddr, hvalid⟩ := hrun j (Nat.lt_succ_self j)
  cases flag with
  | default => exact h
  | fiemap => exact h
  | bmap =>
      rcases h with ⟨cur, max, hmiss⟩ | ⟨-, hnot⟩
      · exact absurd (hmiss.symm.trans hfound) (by simp)
      · exact hnot (haddr ▸ hvalid)
  | precache => exact h.2.2 haddr

/-- **The run decides where to look for a bad place.** -/
lemma badBreak_iff {maxblocks k : ℕ} (hrun : f.RunTo lblk k)
    (hend : k = maxblocks ∨ ¬ f.RunTo lblk (k + 1)) :
    BadBreak f flag lblk maxblocks ↔ 0 < k ∧ k < maxblocks ∧ BadAt f flag lblk k := by
  constructor
  · rintro ⟨j, hpos, hlt, hj, hbad⟩
    obtain rfl : j = k := by
      rcases lt_trichotomy j k with hjk | rfl | hkj
      · exact absurd (fun i hi => hrun i (by omega)) hbad.not_runTo
      · rfl
      · rcases hend with rfl | hnot
        · exact absurd hlt (by omega)
        · exact absurd (fun i hi => hj i (by omega)) hnot
    exact ⟨hpos, hlt, hbad⟩
  · rintro ⟨hpos, hlt, hbad⟩
    exact ⟨k, hpos, hlt, hrun, hbad⟩

lemma not_badBreak {maxblocks : ℕ} (hbmap : flag ≠ .bmap) (hpre : flag ≠ .precache) :
    ¬ BadBreak f flag lblk maxblocks := by
  rintro ⟨j, -, -, -, hbad⟩
  cases flag with
  | default => exact hbad
  | fiemap => exact hbad
  | bmap => exact hbmap rfl
  | precache => exact hpre rfl

/-! ### Results -/

variable {maxblocks : ℕ} {err : Bool}

lemma RunInv.true_of (hinv : RunInv f flag lblk pgofs m) (hle : m.len ≤ maxblocks)
    (hpblk : m'.pblk = m.pblk) (hlen : m'.len = m.len) (hrec : m'.recorded = m.recorded)
    (hnext : ∀ n ∈ m'.nextPgofs, ∀ b, pgofs ≤ b → b < n → ¬ f.IsMapped b) :
    TrueLookup f flag lblk maxblocks err m' := by
  refine ⟨fun _ _ => ?_, fun n hn b hb => hnext n hn b (by rw [hlen, hinv.len] at hb; exact hb),
    by rw [hrec]; exact hinv.recorded⟩
  rw [hlen, hpblk]
  exact ⟨hle, hinv.extent.imp (fun h i hi => (h i hi).2) fun h => ⟨h.1, h.2.2⟩⟩

/-- `m_pblk` does not matter without a run. -/
lemma RunInv.true_of_quiet (hinv : RunInv f flag lblk pgofs m) (hquiet : err = true ∨ m.len = 0)
    (hlen : m'.len = m.len) (hrec : m'.recorded = m.recorded)
    (hnext : ∀ n ∈ m'.nextPgofs, ∀ b, pgofs ≤ b → b < n → ¬ f.IsMapped b) :
    TrueLookup f flag lblk maxblocks err m' := by
  refine ⟨fun herr hpos => ?_, fun n hn b hb => hnext n hn b (by rw [hlen, hinv.len] at hb; exact hb),
    by rw [hrec]; exact hinv.recorded⟩
  rcases hquiet with rfl | hzero
  · exact absurd herr (by simp)
  · omega

/-- A run whose address is cleared is not where the result says. -/
lemma not_true_of_null (hpos : 0 < m.len) (hflag : flag = .bmap) (hpblk : m.pblk = nullAddr) :
    ¬ TrueLookup f flag lblk maxblocks false m := by
  intro h
  rcases (h.extent rfl hpos).2 with hmaps | ⟨hfie, -⟩
  · have hvalid := (hmaps 0 hpos).2.2
    rw [hpblk, BitVec.add_zero] at hvalid
    exact not_valid_nullAddr hvalid
  · rw [hflag] at hfie
    exact absurd hfie (by simp)

/-- `m_next_extent` does not matter. -/
lemma trueLookup_nextExtent {c : Prop} [Decidable c] {n : Option ℕ} :
    TrueLookup f flag lblk maxblocks err (if c then { m with nextExtent := n } else m) ↔
      TrueLookup f flag lblk maxblocks err m := by
  split_ifs
  · exact ⟨fun h => ⟨h.extent, h.next, h.recorded⟩, fun h => ⟨h.extent, h.next, h.recorded⟩⟩
  · exact Iff.rfl

/-! ### The ends of the run -/

/-- What the next block would have to be. -/
lemma RunInv.runTo_succ (hinv : RunInv f flag lblk pgofs m) (hflag : flag ≠ .fiemap)
    (h : f.RunTo lblk (m.len + 1)) : f.Found pgofs ∧ IsValidBlkaddr (f.addr pgofs) ∧
      (0 < m.len → f.addr pgofs = m.pblk + BitVec.ofNat 32 m.len) := by
  obtain ⟨hfound, -, haddr, hvalid⟩ := h m.len (Nat.lt_succ_self _)
  rw [hinv.len] at hfound haddr
  refine ⟨hfound, haddr ▸ hvalid, fun hpos => ?_⟩
  rw [haddr, (hinv.pblk_eq hpos hflag).1]

/-- **The run ends here, inside the request.** -/
lemma RunInv.badBreak_iff (hinv : RunInv f flag lblk pgofs m) (hlt : pgofs < lblk + maxblocks)
    (hend : flag ≠ .fiemap → ¬ f.RunTo lblk (m.len + 1)) :
    BadBreak f flag lblk maxblocks ↔ 0 < m.len ∧ BadAt f flag lblk m.len := by
  have hlen := hinv.len
  by_cases hflag : flag = .fiemap
  · subst hflag
    exact iff_of_false (not_badBreak (by simp) (by simp)) fun h => h.2
  · rw [MapLookup.badBreak_iff (hinv.runTo hflag) (Or.inr (hend hflag))]
    exact ⟨fun h => ⟨h.1, h.2.2⟩, fun h => ⟨h.1, by omega, h.2⟩⟩

/-- The run takes up the request. -/
lemma RunInv.not_badBreak (hinv : RunInv f flag lblk (lblk + maxblocks) m) :
    ¬ BadBreak f flag lblk maxblocks := by
  have hlen : m.len = maxblocks := Nat.add_left_cancel hinv.len
  by_cases hflag : flag = .fiemap
  · subst hflag
    exact MapLookup.not_badBreak (by simp) (by simp)
  · rw [MapLookup.badBreak_iff (hinv.runTo hflag) (Or.inl hlen), hlen]
    exact fun h => absurd h.2.1 (lt_irrefl _)

/-- The dnode cannot be read. -/
lemma RunInv.error_iff (hinv : RunInv f flag lblk pgofs m) (hlt : pgofs < lblk + maxblocks)
    (hmiss : f.getDnodeOfData pgofs = .error) :
    TrueLookup f flag lblk maxblocks true (if flag = .bmap then { m with pblk := nullAddr } else m) ↔
      ¬ BadBreak f flag lblk maxblocks := by
  have hnot : ¬ f.Found pgofs := by
    rintro ⟨o, e, hfound⟩
    exact absurd (hmiss.symm.trans hfound) (by simp)
  refine iff_of_true ?_ ?_
  · refine hinv.true_of_quiet (Or.inl rfl) ?_ ?_ ?_
    · split_ifs <;> rfl
    · split_ifs <;> rfl
    · intro n hn
      have hnext : (if flag = .bmap then { m with pblk := nullAddr } else m).nextPgofs = none := by
        split_ifs <;> exact hinv.next
      rw [hnext] at hn
      exact absurd hn (by simp)
  · rw [hinv.badBreak_iff hlt fun hflag h => hnot (hinv.runTo_succ hflag h).1]
    rintro ⟨-, hbad⟩
    cases flag with
    | default => exact hbad
    | fiemap => exact hbad
    | bmap =>
        rw [BadAt, hinv.len] at hbad
        rcases hbad with ⟨cur, max, hhole⟩ | ⟨hfound, -⟩
        · exact absurd (hmiss.symm.trans hhole) (by simp)
        · exact hnot hfound
    | precache =>
        rw [BadAt, hinv.len] at hbad
        exact hnot hbad.2.1

/-- The dnode is missing. -/
lemma RunInv.enoent_iff {cur max : ℕ} (hinv : RunInv f flag lblk pgofs m)
    (hlt : pgofs < lblk + maxblocks) (hmiss : f.getDnodeOfData pgofs = .enoent cur max)
    (hpblk : m'.pblk = if flag = .bmap then nullAddr else m.pblk) (hlen : m'.len = m.len)
    (hrec : m'.recorded = m.recorded)
    (hnext : m'.nextPgofs = some (f2fsGetNextPageOffset f.lay cur max pgofs)) :
    TrueLookup f flag lblk maxblocks false m' ↔ ¬ BadBreak f flag lblk maxblocks := by
  have hnot : ¬ f.Found pgofs := by
    rintro ⟨o, e, hfound⟩
    exact absurd (hmiss.symm.trans hfound) (by simp)
  have hskip : ∀ n ∈ m'.nextPgofs, ∀ b, pgofs ≤ b → b < n → ¬ f.IsMapped b := by
    intro n hn b hb hbn hmapped
    rw [hnext] at hn
    obtain rfl := Option.some.inj hn
    exact enoent_next hmiss hb hbn hmapped.1
  rw [hinv.badBreak_iff hlt fun hflag h => hnot (hinv.runTo_succ hflag h).1]
  by_cases hflag : flag = .bmap
  · rw [if_pos hflag] at hpblk
    have hbad : BadAt f flag lblk m.len := by
      subst hflag
      rw [BadAt, hinv.len]
      exact Or.inl ⟨cur, max, hmiss⟩
    rcases Nat.eq_zero_or_pos m.len with hzero | hpos
    · refine iff_of_true ?_ fun h => by omega
      exact hinv.true_of_quiet (Or.inr hzero) hlen hrec hskip
    · refine iff_of_false ?_ fun h => h ⟨hpos, hbad⟩
      exact not_true_of_null (hlen ▸ hpos) hflag hpblk
  · rw [if_neg hflag] at hpblk
    have hlen' := hinv.len
    refine iff_of_true (hinv.true_of (by omega) hpblk hlen hrec hskip) ?_
    rintro ⟨-, hbad⟩
    cases flag with
    | default => exact hbad
    | fiemap => exact hbad
    | bmap => exact hflag rfl
    | precache =>
        rw [BadAt, hinv.len] at hbad
        exact hnot hbad.2.1

/-- Nothing is recorded for another flag, or before there is a run. -/
lemma record_eq_self {start : ℕ} (h : flag = .precache → m.flags.mapped = false) :
    record flag lblk start m = m := by
  rw [record, if_neg]
  rintro ⟨hflag, hmapped⟩
  rw [h hflag] at hmapped
  exact absurd hmapped (by simp)

/-- **The record that has no block.** -/
lemma RunInv.not_true_record (hinv : RunInv f flag lblk pgofs m) (hflag : flag = .precache)
    (hpos : 0 < m.len) (hfit : pgofs < 2 ^ 32) :
    ¬ TrueLookup f flag lblk maxblocks err (MapLookup.record flag lblk pgofs m) := by
  have hlen := hinv.len
  have hofs : sub32 pgofs lblk = m.len := sub32_eq (by omega) hfit
  have hzero : sub32 m.len m.len = 0 := sub32_eq (Nat.zero_add _).symm (by omega)
  intro htrue
  have hgood := htrue.recorded ⟨pgofs, 0, m.pblk + BitVec.ofNat 32 m.len⟩ (by
    rw [MapLookup.record, if_pos ⟨hflag, by rw [hinv.mapped]; exact decide_eq_true hpos⟩]
    simp [hofs, hzero])
  exact absurd hgood.1 (lt_irrefl _)

/-- The run goes on over a dnode whose first block is not taken. -/
lemma RunInv.stop_iff {start k : ℕ} (hinv : RunInv f flag lblk (start + k) m)
    (hle : lblk ≤ start) (hlt : start + k < lblk + maxblocks)
    {o e : ℕ} (hdnode : f.getDnodeOfData start = .found o e) (hk : o + k < e)
    (hfound : f.Found (start + k)) (hedge : start ≠ lblk → f.LastInDnode (start - 1))
    (hstop : nextBlock f flag (start + k) m = .syncOut m') :
    TrueLookup f flag lblk maxblocks false (MapLookup.record flag lblk start m') ↔
      ¬ BadBreak f flag lblk maxblocks := by
  have hlen := hinv.len
  have hnone : ∀ n ∈ m.nextPgofs, ∀ b, start + k ≤ b → b < n → ¬ f.IsMapped b := by
    intro n hn
    rw [hinv.next] at hn
    exact absurd hn (by simp)
  rcases hinv.halt hstop with ⟨rfl, hnull, rfl⟩ | ⟨rfl, hbmap, hend⟩ | ⟨hbmap, hpre, hnull, rfl⟩
  -- `BMAP` at a hole
  · rw [record_eq_self (by simp), hinv.badBreak_iff hlt fun hflag h =>
      hnull (hinv.runTo_succ hflag h).2.1]
    have hbad : BadAt f .bmap lblk m.len := by
      rw [BadAt, hlen]
      exact Or.inr ⟨hfound, hnull⟩
    rcases Nat.eq_zero_or_pos m.len with hzero | hpos
    · refine iff_of_true ?_ fun h => by omega
      exact hinv.true_of_quiet (Or.inr hzero) rfl rfl hnone
    · exact iff_of_false (not_true_of_null hpos rfl rfl) fun h => h ⟨hpos, hbad⟩
  -- the block does not continue the run
  · rw [hinv.badBreak_iff hlt fun hflag h => hend hflag (hinv.runTo_succ hflag h).2]
    have htrue : TrueLookup f flag lblk maxblocks false m' :=
      hinv.true_of (by omega) rfl rfl rfl hnone
    cases flag with
    | default =>
        rw [record_eq_self (by simp)]
        exact iff_of_true htrue fun h => h.2
    | fiemap =>
        rw [record_eq_self (by simp)]
        exact iff_of_true htrue fun h => h.2
    | bmap =>
        rw [record_eq_self (by simp)]
        refine iff_of_true htrue ?_
        rintro ⟨-, hbad⟩
        rw [BadAt, hlen] at hbad
        rcases hbad with ⟨cur, max, hhole⟩ | ⟨-, hnot⟩
        · obtain ⟨o', e', hfound⟩ := hfound
          exact absurd (hhole.symm.trans hfound) (by simp)
        · exact hnot (hbmap rfl)
    | precache =>
        rcases Nat.eq_zero_or_pos m'.len with hzero | hpos
        · rw [record_eq_self fun _ => by rw [hinv.mapped]; simp [hzero]]
          exact iff_of_true htrue fun h => by omega
        · rcases Nat.eq_zero_or_pos k with rfl | hkpos
          · -- the dnode has given no block
            refine iff_of_false ?_ fun h => h ⟨hpos, ?_⟩
            · exact hinv.not_true_record rfl hpos (by have := lt_of_found hfound; omega)
            · rw [BadAt, hlen]
              refine ⟨hedge (by omega), hfound, fun haddr => ?_⟩
              have hpblk := hinv.pblk_eq hpos (by simp)
              rw [← hpblk.1] at haddr
              refine hend (by simp) ⟨?_, fun _ => haddr⟩
              rw [haddr]
              exact hinv.behind hpos hpblk.2.2
          · refine iff_of_true ?_ ?_
            · have hinv' := hinv.record hle (show start < start + k by omega)
              refine hinv'.true_of ?_ rfl rfl rfl ?_
              · have := hinv'.len
                omega
              · intro n hn
                rw [hinv'.next] at hn
                exact absurd hn (by simp)
            · -- the block before is in this dnode, which goes on
              rintro ⟨-, hbad⟩
              rw [BadAt, hlen] at hbad
              have hinline : f.hasInlineData = false := by
                by_contra hnot
                have := found_inline (by simpa using hnot) hfound
                omega
              have hprev := found_add (k := k - 1) hinline hdnode (by omega)
              rw [show start + (k - 1) = start + k - 1 by omega] at hprev
              have := (last_iff hprev).mp hbad.1
              omega
  -- `DEFAULT` or `FIEMAP` at a hole
  · rw [record_eq_self fun h => absurd h hpre]
    refine iff_of_true ?_ (MapLookup.not_badBreak hbmap hpre)
    refine hinv.true_of (by omega) rfl rfl rfl fun n hn b hb hbn hmapped => ?_
    obtain rfl := Option.some.inj hn
    obtain rfl : b = start + k := by omega
    exact hnull hmapped.2.2

lemma RunInv.not_inline (hinv : RunInv f flag lblk pgofs m) (hpos : 0 < m.len) :
    f.hasInlineData = false := by
  rcases hinv.extent with hmaps | ⟨-, -, hres⟩
  · exact (hmaps 0 hpos).2.1.1
  · exact (hres 0 hpos).1.1

/-- **The loop over the dnodes ends, and its result is true unless the run ends in a bad place.**
Every dnode but the first is entered from the end of the one before. -/
theorem nextDnode_true_iff {fuel : ℕ} (hinv : RunInv f flag lblk pgofs m)
    (hlt : pgofs < lblk + maxblocks) (hfuel : lblk + maxblocks ≤ pgofs + fuel)
    (hedge : pgofs ≠ lblk → f.LastInDnode (pgofs - 1)) :
    ∃ err m', nextDnode f flag lblk (lblk + maxblocks) fuel pgofs m = some (err, m') ∧
      (TrueLookup f flag lblk maxblocks err m' ↔ ¬ BadBreak f flag lblk maxblocks) := by
  induction fuel generalizing pgofs m with
  | zero => omega
  | succ fuel ih =>
      have hle : lblk ≤ pgofs := Nat.le.intro hinv.len
      rw [nextDnode]
      cases hdnode : f.getDnodeOfData pgofs with
      | error => exact ⟨_, _, rfl, hinv.error_iff hlt hdnode⟩
      | enoent cur max =>
          refine ⟨_, _, rfl, hinv.enoent_iff hlt hdnode ?_ ?_ ?_ rfl⟩
          · simp only []
            split_ifs <;> rfl
          · simp only []
            split_ifs <;> rfl
          · simp only []
            split_ifs <;> rfl
      | found o e =>
          have hoe := found_lt hdnode
          have hends := dnodeLoop_end hdnode hlt hinv
          generalize hloop : dnodeLoop f flag (lblk + maxblocks) (e - o - 1) pgofs m = r at hends
          simp only [hloop]
          cases hends with
          | dnode m₁ hmore hinv₁ =>
              have hinline := hinv₁.not_inline (by have := hinv₁.len; omega)
              have hlast : f.LastInDnode (pgofs + (e - o - 1)) :=
                (last_iff (found_add hinline hdnode (by omega))).mpr (by omega)
              exact ih (hinv₁.record hle (by omega)) hmore (by omega) fun _ => hlast
          | request m₁ hfrom hto hinv₁ =>
              refine ⟨_, _, rfl, ?_⟩
              rw [trueLookup_nextExtent]
              have hinv₂ := hinv₁.record hle hfrom
              refine iff_of_true ?_ hinv₁.not_badBreak
              refine hinv₂.true_of (by have := hinv₂.len; omega) rfl rfl rfl fun n hn => ?_
              rw [hinv₂.next] at hn
              exact absurd hn (by simp)
          | block k m₁ m₂ hk hmore hinv₁ hstop =>
              refine ⟨_, _, rfl, ?_⟩
              rw [trueLookup_nextExtent]
              have hfound : f.Found (pgofs + k) := by
                rcases Nat.eq_zero_or_pos k with rfl | hkpos
                · exact ⟨o, e, hdnode⟩
                · have hinline := hinv₁.not_inline (by have := hinv₁.len; omega)
                  exact ⟨o + k, e, found_add hinline hdnode (by omega)⟩
              exact hinv₁.stop_iff hle hmore hdnode (by omega) hfound hedge hstop

end Run

/-! ## Every lookup -/

section Lookup

variable {f : FileMap l} {flag : LookupFlag} {pblk : BitVec 32} {lblk maxblocks fuel ino : ℕ}
  {cache : Extent.ExtentCache} {may : Bool} {ei : Extent.ExtentInfo}

/-- The extent that is found has the block. -/
lemma CacheSound.lookup (h : CacheSound f cache ino)
    (hei : f2fsLookupExtentCache cache ino may lblk = some ei) :
    ei.has lblk = true ∧ f.Agrees ei := by
  rw [f2fsLookupExtentCache] at hei
  split_ifs at hei
  obtain ⟨⟨ei', c'⟩, hlookup, rfl⟩ := Option.map_eq_some_iff.mp hei
  rw [Extent.ExtentCache.f2fsLookupExtentTree] at hlookup
  cases ht : cache.trees ino with
  | none => simp [ht] at hlookup
  | some t =>
      simp only [ht] at hlookup
      split_ifs at hlookup with hhas
      · obtain ⟨rfl, rfl⟩ := hlookup
        exact ⟨hhas, h.largest t ht⟩
      · obtain ⟨en, hen, heq⟩ := Option.map_eq_some_iff.mp hlookup
        obtain ⟨rfl, rfl⟩ := heq
        obtain ⟨hmem, hhas'⟩ := Extent.lookup_node hen
        exact ⟨hhas', h.nodes t ht en hmem⟩

lemma f2fsMapBlocks_hit (hpos : maxblocks ≠ 0) :
    f2fsMapBlocks f (some ei) flag pblk lblk maxblocks fuel =
      some (false, ⟨⟨ei.addr lblk, min maxblocks (ei.stop - lblk), ⟨false, true, false⟩⟩, none,
        some (lblk + min maxblocks (ei.stop - lblk)), []⟩) := by
  simp only [f2fsMapBlocks, if_neg hpos]

lemma f2fsMapBlocks_miss (hpos : maxblocks ≠ 0) :
    f2fsMapBlocks f none flag pblk lblk maxblocks fuel =
      nextDnode f flag lblk (lblk + maxblocks) fuel lblk
        ⟨⟨pblk, 0, ⟨false, false, false⟩⟩, none, none, []⟩ := by
  simp only [f2fsMapBlocks, if_neg hpos]

lemma runInv_start :
    RunInv f flag lblk lblk ⟨⟨pblk, 0, ⟨false, false, false⟩⟩, none, none, []⟩ :=
  ⟨rfl, Or.inl fun i hi => absurd hi (Nat.not_lt_zero i), rfl, rfl, fun ei hei => by simp at hei⟩

/-- What comes from the extent cache is true. -/
lemma true_of_hit (hhas : ei.has lblk = true) (hagrees : f.Agrees ei) {n : Option ℕ} :
    TrueLookup f flag lblk maxblocks false
      ⟨⟨ei.addr lblk, min maxblocks (ei.stop - lblk), ⟨false, true, false⟩⟩, none, n, []⟩ := by
  rw [Extent.ExtentInfo.has_iff] at hhas
  refine ⟨fun _ _ => ⟨min_le_left _ _, Or.inl fun i hi => ?_⟩, fun n hn => ?_, fun e he => ?_⟩
  · have hlt : i < ei.stop - lblk := lt_of_lt_of_le hi (min_le_right _ _)
    have hblock := hagrees (lblk + i) (by
      rw [Extent.ExtentInfo.has_iff]
      omega)
    rw [Extent.ExtentInfo.addr] at hblock ⊢
    rw [BitVec.add_assoc, ← BitVec.ofNat_add,
      show lblk - ei.fofs + i = lblk + i - ei.fofs by omega]
    exact hblock
  · exact absurd hn (by simp)
  · exact absurd he (by simp)

end Lookup

/-- **When a lookup without `create` tells the truth.**  It ends, and unless the extent cache has the
answer its result is true exactly if the run does not end in a bad place. -/
theorem map_blocks_true_iff (f : FileMap l) (cache : Extent.ExtentCache) (ino : ℕ) (may : Bool)
    (flag : LookupFlag) (pblk : BitVec 32) (lblk maxblocks fuel : ℕ)
    (hcache : CacheSound f cache ino) (hfuel : maxblocks ≤ fuel) :
    ∃ err m, f2fsMapBlocks f (f2fsLookupExtentCache cache ino may lblk) flag pblk lblk maxblocks
        fuel = some (err, m) ∧
      (TrueLookup f flag lblk maxblocks err m ↔
        (f2fsLookupExtentCache cache ino may lblk).isSome = true ∨
          ¬ BadBreak f flag lblk maxblocks) := by
  by_cases hzero : maxblocks = 0
  · subst hzero
    refine ⟨_, _, rfl, iff_of_true ?_ (Or.inr ?_)⟩
    · exact runInv_start.true_of le_rfl rfl rfl rfl fun n hn => absurd hn (by simp)
    · rintro ⟨j, -, hj, -⟩
      exact absurd hj (Nat.not_lt_zero j)
  · cases hcached : f2fsLookupExtentCache cache ino may lblk with
    | some ei =>
        obtain ⟨hhas, hagrees⟩ := hcache.lookup hcached
        exact ⟨_, _, f2fsMapBlocks_hit hzero, iff_of_true (true_of_hit hhas hagrees) (Or.inl rfl)⟩
    | none =>
        have hlt : lblk < lblk + maxblocks := by omega
        obtain ⟨err, m, hrun, htrue⟩ := nextDnode_true_iff runInv_start hlt
          (show lblk + maxblocks ≤ lblk + fuel by omega) fun hne => absurd rfl hne
        exact ⟨err, m, (f2fsMapBlocks_miss hzero).trans hrun, by simpa using htrue⟩

lemma boundaryLayout_newAddr : boundaryLayout.mainBlkaddr + boundaryLayout.segmentCountMain * blocksPerSeg
    < newAddr.toNat := by
  decide

/-- The last slot of the inode has a block, and the first slot of the dnode behind it a hole. -/
def gapAddr (b : ℕ) : BitVec 32 :=
  if b = 922 then 1536#32 else nullAddr

lemma gapAddr_ok (b : ℕ) (hb : IsValidBlkaddr (gapAddr b)) :
    ExtentInMain boundaryLayout (gapAddr b) 1 := by
  by_cases h : b = 922
  · subst h
    exact ⟨by decide, by decide⟩
  · rw [gapAddr, if_neg h] at hb
    exact absurd rfl hb.1

def gapFile : FileMap boundaryLayout where
  lay := plainLayout
  hasInlineData := false
  present n := decide (n ≤ 1)
  readError _ := false
  addr := gapAddr
  addr_ok := gapAddr_ok
  newAddr_outside := boundaryLayout_newAddr
  inline_null h := absurd h Bool.false_ne_true

lemma gapFile_cacheSound : CacheSound gapFile Extent.emptyCache 1 :=
  ⟨fun t ht => absurd ht (by simp [Extent.emptyCache]),
    fun t ht => absurd ht (by simp [Extent.emptyCache])⟩

/-- An extent of length 0 goes into the cache, and with `BMAP` a block that is mapped comes out at
address 0. -/
theorem gapFile_looked_up_wrong : CacheSound gapFile Extent.emptyCache 1 ∧
    (∃ m, f2fsMapBlocks gapFile (f2fsLookupExtentCache Extent.emptyCache 1 true 922) .precache 0 922 2
        2 = some (false, m) ∧ ¬ TrueLookup gapFile .precache 922 2 false m) ∧
    ∃ m, f2fsMapBlocks gapFile (f2fsLookupExtentCache Extent.emptyCache 1 true 922) .bmap 0 922 2
        2 = some (false, m) ∧ ¬ TrueLookup gapFile .bmap 922 2 false m := by
  refine ⟨gapFile_cacheSound,
    ⟨⟨⟨1536#32, 1, ⟨false, true, false⟩⟩, none, some 924, [⟨922, 1, 1536#32⟩, ⟨923, 0, 1537#32⟩]⟩,
      by decide +kernel, fun h => ?_⟩,
    ⟨⟨⟨0, 1, ⟨false, true, false⟩⟩, none, none, []⟩, by decide +kernel, ?_⟩⟩
  · exact absurd (h.recorded ⟨923, 0, 1537#32⟩ (by simp)).1 (lt_irrefl 0)
  · exact not_true_of_null Nat.one_pos rfl rfl

theorem map_blocks_true_iff_gapFile :
    ∃ err m, f2fsMapBlocks gapFile (f2fsLookupExtentCache Extent.emptyCache 1 true 922) .precache 0
        922 2 2 = some (err, m) ∧
      (TrueLookup gapFile .precache 922 2 err m ↔
        (f2fsLookupExtentCache Extent.emptyCache 1 true 922).isSome = true ∨
          ¬ BadBreak gapFile .precache 922 2) :=
  map_blocks_true_iff gapFile Extent.emptyCache 1 true .precache 0 922 2 2 gapFile_cacheSound le_rfl

end Hoit.MapLookup
