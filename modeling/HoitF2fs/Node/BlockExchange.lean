import HoitF2fs.Node.BlockOwners
import HoitF2fs.Lib.SlotMove

/-!
# Exchanging the blocks of two ranges

`__exchange_data_block` moves the blocks of a range of a file to another range, of the same file or of
another one, in chunks.  The addresses of blocks that no checkpoint has are taken out of the source
first (`__read_out_blkaddrs`), and then put in at the destination; the other blocks are copied, page
by page (`__clone_blkaddrs`).  If something fails, what is still in hand goes back
(`__roll_back_blkaddrs`).

* `readOutBlkaddrs`, `cloneBlkaddrs`, `rollBackBlkaddrs`, `exchangeDataBlock` — the four functions.
  The loops are given fuel.
* `held` — what a block holds: its page, if that is dirty, and else what lies at its address.
* `Progress` — the first `n` blocks have been moved; `Halted` — something has failed at block `n`.

**One block at a time**: `Progress.replace`, `Progress.copy`, `Progress.cut` and `Progress.keep` are the
four things that are done with a block, on files that have nothing taken out of them.
-/

namespace Hoit.BlockExchange

open NodePath Blocks SlotMove

variable {V : Type}

/-! ## The calls -/

/-- A call that can fail. -/
def Blocks.tick (st : Blocks V) : Blocks V := { st with calls := st.calls + 1 }

inductive NodeMode where
  | alloc
  | lookup

/-- What `f2fs_get_dnode_of_data` returns. -/
inductive GetDnode where
  | error
  | enoent (maxLevel ofsInNode : ℕ)
  | found (ofsInNode endOffset : ℕ)

/-- `f2fs_get_dnode_of_data`; `fail` is whether a node cannot be read or allocated. -/
def f2fsGetDnodeOfData (E : FsEnv V) (st : Blocks V) (x : Slot) (mode : NodeMode)
    (fail : Option ℕ) : GetDnode × Blocks V :=
  match getNodePath (E.lay x.ino) x.index with
  | none => (.error, st)
  | some p =>
      match fail, mode with
      | some k, .alloc => (.error, st.newNodes x.ino p (min k (p.level - 1)))
      | some _, .lookup => (.error, st)
      | none, .alloc =>
          (.found p.ofsInNode (addrsPerPage (E.lay x.ino) p.level), st.newNodes x.ino p p.level)
      | none, .lookup =>
          match lookupHole false (st.hasNode x.ino) p x.index with
          | some _ => (.enoent p.level p.ofsInNode, st)
          | none => (.found p.ofsInNode (addrsPerPage (E.lay x.ino) p.level), st)

/-- `f2fs_is_checkpointed_data`. -/
def FsEnv.isCheckpointedData (E : FsEnv V) (a : BitVec 32) : Bool :=
  !decide (IsValidBlkaddr a) || E.ckptValid a

/-- The page of a block that has an address. -/
def Blocks.pageOf (E : FsEnv V) (st : Blocks V) (x : Slot) : V :=
  (st.pages x).getD (if st.addr x = newAddr then E.zeroPage else st.content (st.addr x))

/-- The file ends behind block `index`, at least. -/
def Blocks.growSize (st : Blocks V) (x : Slot) : Blocks V :=
  { st with iSize := Function.update st.iSize x.ino (max (st.iSize x.ino) ((x.index + 1) <<< 12)) }

/-- `f2fs_get_lock_data_page`. -/
def f2fsGetLockDataPage (E : FsEnv V) (st : Blocks V) (x : Slot) : Option V × Blocks V :=
  match f2fsGetDnodeOfData E st.tick x .lookup (E.fault st.calls) with
  | (.found _ _, st) =>
      if st.addr x = nullAddr then (none, st)
      -- the page may have to be read
      else if (E.fault st.calls).isSome then (none, st.tick)
      else (some (st.pageOf E x), st.tick)
  | (_, st) => (none, st)

/-- `f2fs_get_new_data_page`, without the page. -/
def f2fsGetNewDataPage (E : FsEnv V) (st : Blocks V) (x : Slot) : Bool × Blocks V :=
  if (E.fault st.calls).isSome then (false, st.tick)
  else
    let st := st.tick
    -- `f2fs_reserve_block`
    match f2fsGetDnodeOfData E st.tick x .alloc (E.fault st.calls) with
    | (.found _ _, st) =>
        if st.addr x = nullAddr then
          if (E.fault st.calls).isSome then (false, st.tick)
          else (true, (st.tick.reserveSlot x).growSize x)
        else if st.addr x ≠ newAddr ∧ st.pages x = none ∧ (E.fault st.calls).isSome then
          (false, st.tick)
        else (true, st.tick.growSize x)
    | (_, st) => (false, st)

/-- `f2fs_truncate_hole` for one block. -/
def f2fsTruncateHole (E : FsEnv V) (st : Blocks V) (x : Slot) : Bool × Blocks V :=
  match f2fsGetDnodeOfData E st.tick x .lookup (E.fault st.calls) with
  | (.error, st) => (false, st)
  | (.enoent _ _, st) => (true, st)
  | (.found _ _, st) => (true, st.truncateSlot x)

/-! ## The exchange -/

/-- `src_blkaddr` and `do_replace`. -/
structure Taken where
  blkaddr : ℕ → BitVec 32
  doReplace : ℕ → Bool

def Taken.zero : Taken := ⟨fun _ => nullAddr, fun _ => false⟩

def Taken.setBlkaddr (t : Taken) (i : ℕ) (a : BitVec 32) : Taken :=
  { t with blkaddr := Function.update t.blkaddr i a }

def Taken.setReplace (t : Taken) (i : ℕ) (b : Bool) : Taken :=
  { t with doReplace := Function.update t.doReplace i b }

/-- The loop of `__read_out_blkaddrs` over `done` blocks of one dnode. -/
def readDnode (E : FsEnv V) (inode off : ℕ) :
    (done : ℕ) → ℕ → Blocks V → Taken → Bool × Blocks V × Taken
  | 0, _, st, t => (true, st, t)
  | done + 1, i, st, t =>
      let x : Slot := ⟨inode, off + i⟩
      let a := st.addr x
      let t := t.setBlkaddr i a
      if E.isCheckpointedData a then readDnode E inode off done (i + 1) st t
      else if E.lfs then (false, st, t)
      else readDnode E inode off done (i + 1) (st.setAddr x nullAddr) (t.setReplace i true)

/-- `__read_out_blkaddrs`, from block `i` on. -/
def readOutBlkaddrs (E : FsEnv V) (inode off len : ℕ) :
    (fuel : ℕ) → ℕ → Blocks V → Taken → Option (Bool × Blocks V × Taken)
  | 0, _, _, _ => none
  | fuel + 1, i, st, t =>
      match f2fsGetDnodeOfData E st.tick ⟨inode, off + i⟩ .lookup (E.fault st.calls) with
      | (.error, st) => some (false, st, t)
      | (.enoent maxLevel ofsInNode, st) =>
          if maxLevel = 0 then some (false, st, t)
          else
            let done := min (addrsPerBlock - ofsInNode) (len - i)
            if i + done < len then readOutBlkaddrs E inode off len fuel (i + done) st t
            else some (true, st, t)
      | (.found ofsInNode endOffset, st) =>
          let done := min (endOffset - ofsInNode) (len - i)
          match readDnode E inode off done i st t with
          | (false, st, t) => some (false, st, t)
          | (true, st, t) =>
              if i + done < len then readOutBlkaddrs E inode off len fuel (i + done) st t
              else some (true, st, t)

/-- `__roll_back_blkaddrs`, for `len` blocks from block `i` on. -/
def rollBackBlkaddrs (E : FsEnv V) (inode off : ℕ) (t : Taken) :
    (len : ℕ) → ℕ → Blocks V → Blocks V
  | 0, _, st => st
  | len + 1, i, st =>
      let x : Slot := ⟨inode, off + i⟩
      if t.doReplace i = false then rollBackBlkaddrs E inode off t len (i + 1) st
      else
        match f2fsGetDnodeOfData E st x .lookup (if E.lostNode x then some 0 else none) with
        | (.found _ _, st) =>
            rollBackBlkaddrs E inode off t len (i + 1) (st.setAddr x (t.blkaddr i))
        | (_, st) =>
            rollBackBlkaddrs E inode off t len (i + 1)
              ((st.addValidBlockCount inode (-1)).invalidateBlocks (t.blkaddr i))

/-- `f2fs_replace_block` and the two calls before it, for a slot that has been emptied. -/
def replaceBlock (srcInode : ℕ) (y : Slot) (a : BitVec 32) (st : Blocks V) : Blocks V :=
  ((st.iBlocksWrite srcInode (-1)).iBlocksWrite y.ino 1).setAddr y a

/-- One pass of the `do` loop of `__clone_blkaddrs`. -/
def cloneSlot (srcInode : ℕ) (y : Slot) (i : ℕ) (st : Blocks V) (t : Taken) : Blocks V × Taken :=
  let st := st.truncateSlot y
  if t.doReplace i then
    ((replaceBlock srcInode y (t.blkaddr i) st).growSize y, t.setReplace i false)
  else (st.growSize y, t)

/-- The `do` loop of `__clone_blkaddrs`, with `ilen` blocks to go in the dnode. -/
def cloneDnode (srcInode dstInode dst : ℕ) :
    (ilen : ℕ) → ℕ → Blocks V → Taken → ℕ × Blocks V × Taken
  | 0, i, st, t => (i, st, t)
  | ilen + 1, i, st, t =>
      let (st, t) := cloneSlot srcInode ⟨dstInode, dst + i⟩ i st t
      if ilen ≠ 0 ∧ (t.doReplace (i + 1) = true ∨ t.blkaddr (i + 1) = nullAddr) then
        cloneDnode srcInode dstInode dst ilen (i + 1) st t
      else (i + 1, st, t)

/-- A block that is copied. -/
def copyBlock (E : FsEnv V) (x y : Slot) (st : Blocks V) : Bool × Blocks V :=
  match f2fsGetLockDataPage E st x with
  | (none, st) => (false, st)
  | (some v, st) =>
      match f2fsGetNewDataPage E st y with
      | (false, st) => (false, st)
      | (true, st) =>
          f2fsTruncateHole E { st with pages := Function.update st.pages y (some v) } x

/-- `__clone_blkaddrs`, from block `i` on. -/
def cloneBlkaddrs (E : FsEnv V) (srcInode dstInode src dst len : ℕ) (full : Bool) :
    (fuel : ℕ) → ℕ → Blocks V → Taken → Option (Bool × Blocks V × Taken)
  | fuel, i, st, t =>
      if len ≤ i then some (true, st, t)
      else
        match fuel with
        | 0 => none
        | fuel + 1 =>
            if t.blkaddr i = nullAddr ∧ full = false then
              cloneBlkaddrs E srcInode dstInode src dst len full fuel (i + 1) st t
            else if t.doReplace i = true ∨ t.blkaddr i = nullAddr then
              match f2fsGetDnodeOfData E st.tick ⟨dstInode, dst + i⟩ .alloc (E.fault st.calls) with
              | (.found ofsInNode endOffset, st) =>
                  let ilen := min (endOffset - ofsInNode) (len - i)
                  let (i, st, t) := cloneDnode srcInode dstInode dst ilen i st t
                  cloneBlkaddrs E srcInode dstInode src dst len full fuel i st t
              | (_, st) => some (false, st, t)
            else
              match copyBlock E ⟨srcInode, src + i⟩ ⟨dstInode, dst + i⟩ st with
              | (false, st) => some (false, st, t)
              | (true, st) => cloneBlkaddrs E srcInode dstInode src dst len full fuel (i + 1) st t

/-- `__exchange_data_block`. -/
def exchangeDataBlock (E : FsEnv V) (srcInode dstInode : ℕ) (full : Bool) :
    (fuel : ℕ) → (src dst len : ℕ) → Blocks V → Option (Bool × Blocks V)
  | fuel, src, dst, len, st =>
      if len = 0 then some (true, st)
      else
        match fuel with
        | 0 => none
        | fuel + 1 =>
            let olen := min (4 * addrsPerBlock) len
            -- the two arrays
            if (E.fault st.calls).isSome then some (false, st.tick)
            else if (E.fault st.tick.calls).isSome then some (false, st.tick.tick)
            else
              match readOutBlkaddrs E srcInode src olen olen 0 st.tick.tick Taken.zero with
              | none => none
              | some (false, st, t) => some (false, rollBackBlkaddrs E srcInode src t olen 0 st)
              | some (true, st, t) =>
                  match cloneBlkaddrs E srcInode dstInode src dst olen full olen 0 st t with
                  | none => none
                  | some (false, st, t) => some (false, rollBackBlkaddrs E srcInode src t olen 0 st)
                  | some (true, st, _) =>
                      exchangeDataBlock E srcInode dstInode full fuel (src + olen) (dst + olen)
                        (len - olen) st

/-! ## Finding a dnode -/

section Dnode

variable {E : FsEnv V} {st st' : Blocks V} {x : Slot} {mode : NodeMode} {fail : Option ℕ} {o e m : ℕ}

lemma getDnode_lookup (E : FsEnv V) (st : Blocks V) (x : Slot) (fail : Option ℕ) :
    (f2fsGetDnodeOfData E st x .lookup fail).2 = st := by
  rw [f2fsGetDnodeOfData]
  cases getNodePath (E.lay x.ino) x.index with
  | none => rfl
  | some p =>
      cases fail with
      | some k => rfl
      | none =>
          cases hlook : lookupHole false (st.hasNode x.ino) p x.index with
          | some cur => simp only [hlook]
          | none => simp only [hlook]

lemma getDnode_fail {k : ℕ} : f2fsGetDnodeOfData E st x mode (some k) ≠ (.found o e, st') := by
  rw [f2fsGetDnodeOfData]
  cases getNodePath (E.lay x.ino) x.index with
  | none => simp
  | some p => cases mode <;> simp

/-- **What finding a dnode does to the files.** -/
lemma getDnode_spec (h : Wf E st) (x : Slot) (mode : NodeMode) (fail : Option ℕ) :
    Wf E (f2fsGetDnodeOfData E st x mode fail).2 ∧
      SameFiles st (f2fsGetDnodeOfData E st x mode fail).2 := by
  cases mode with
  | lookup =>
      rw [getDnode_lookup]
      exact ⟨h, SameFiles.refl st⟩
  | alloc =>
      rw [f2fsGetDnodeOfData]
      cases getNodePath (E.lay x.ino) x.index with
      | none => exact ⟨h, SameFiles.refl st⟩
      | some p =>
          have hnew : ∀ k, Wf E (st.newNodes x.ino p k) ∧ _ := newNodes_spec h p
          cases fail with
          | some k => exact ⟨(hnew _).1, (hnew _).2.1⟩
          | none => exact ⟨(hnew _).1, (hnew _).2.1⟩

lemma newNodes_addr (ino : ℕ) (p : Path) (k : ℕ) : (st.newNodes ino p k).addr = st.addr := by
  rw [Blocks.newNodes]
  generalize List.range' 1 k = is
  induction is generalizing st with
  | nil => rfl
  | cons i is ih =>
      rw [List.foldl_cons, ih]
      exact (newNode_fields _ ino _).1

lemma getDnode_addr (E : FsEnv V) (st : Blocks V) (x : Slot) (mode : NodeMode) (fail : Option ℕ) :
    (f2fsGetDnodeOfData E st x mode fail).2.addr = st.addr := by
  cases mode with
  | lookup => rw [getDnode_lookup]
  | alloc =>
      rw [f2fsGetDnodeOfData]
      cases getNodePath (E.lay x.ino) x.index with
      | none => rfl
      | some p => cases fail <;> exact newNodes_addr _ _ _

/-- The following slots of the dnode that is found belong to the following blocks. -/
lemma getDnode_found (h : Wf E st) (hr : f2fsGetDnodeOfData E st x mode fail = (.found o e, st')) :
    o < e ∧ ∀ k < e - o, st'.Reached E ⟨x.ino, x.index + k⟩ := by
  -- the nodes on the path are there
  obtain ⟨p, hp, hlook, rfl, rfl⟩ : ∃ p, getNodePath (E.lay x.ino) x.index = some p ∧
      lookupHole false (st'.hasNode x.ino) p x.index = none ∧ p.ofsInNode = o ∧
      addrsPerPage (E.lay x.ino) p.level = e := by
    rw [f2fsGetDnodeOfData] at hr
    cases hp : getNodePath (E.lay x.ino) x.index with
    | none => simp [hp] at hr
    | some p =>
        cases fail with
        | some k => cases mode <;> simp [hp] at hr
        | none =>
            cases mode with
            | alloc =>
                simp only [hp, Prod.mk.injEq, GetDnode.found.injEq] at hr
                obtain ⟨⟨ho, he⟩, rfl⟩ := hr
                refine ⟨p, rfl, ?_, ho, he⟩
                rw [lookupHole, if_neg (by simp), List.find?_eq_none]
                intro i hi
                rw [List.mem_range'_1] at hi
                have hmem := ((newNodes_spec h p p.level : Wf E (st.newNodes x.ino p p.level) ∧ _)).2.2 i (by omega) (by omega)
                rw [hasNode, decide_eq_true hmem]
                simp
            | lookup =>
                cases hlook : lookupHole false (st.hasNode x.ino) p x.index with
                | some cur => simp [hp, hlook] at hr
                | none =>
                    simp only [hp, hlook, Prod.mk.injEq, GetDnode.found.injEq] at hr
                    obtain ⟨⟨ho, he⟩, rfl⟩ := hr
                    exact ⟨p, rfl, hlook, ho, he⟩
  have hof := getNodePath_eq_some_iff.mp hp
  refine ⟨hof.ofs_lt, fun k hk => ?_⟩
  obtain ⟨p', hp', hlevel, hnoffset, -⟩ := hof.add (k := k) (by rw [addrsPerPage] at hk; omega)
  refine ⟨p', getNodePath_eq_some_iff.mpr hp', ?_⟩
  show lookupHole false (st'.hasNode x.ino) p' (x.index + k) = none
  rw [lookupHole_false hlevel hnoffset, hlook]

/-- A dnode that is missing has no addresses. -/
lemma getDnode_enoent (hr : f2fsGetDnodeOfData E st x mode fail = (.enoent m o, st')) :
    st' = st ∧ (m ≠ 0 → o < addrsPerBlock ∧
      ∀ k < addrsPerBlock - o, ¬ st.Reached E ⟨x.ino, x.index + k⟩) := by
  rw [f2fsGetDnodeOfData] at hr
  cases hp : getNodePath (E.lay x.ino) x.index with
  | none => simp [hp] at hr
  | some p =>
      cases fail with
      | some k => cases mode <;> simp [hp] at hr
      | none =>
          cases mode with
          | alloc => simp [hp] at hr
          | lookup =>
              cases hlook : lookupHole false (st.hasNode x.ino) p x.index with
              | none => simp [hp, hlook] at hr
              | some cur =>
                  simp only [hp, hlook, Prod.mk.injEq, GetDnode.enoent.injEq] at hr
                  obtain ⟨⟨rfl, rfl⟩, rfl⟩ := hr
                  refine ⟨rfl, fun hm => ?_⟩
                  have hof := getNodePath_eq_some_iff.mp hp
                  have hlt := hof.ofs_lt
                  rw [if_neg hm] at hlt
                  refine ⟨hlt, fun k hk => ?_⟩
                  rintro ⟨p'', hp'', hlook''⟩
                  obtain ⟨p', hp', hlevel, hnoffset, -⟩ := hof.add (k := k) (by
                    rw [if_neg hm]
                    omega)
                  obtain rfl : p' = p'' :=
                    Option.some.inj ((getNodePath_eq_some_iff.mpr hp').symm.trans hp'')
                  have hsame : lookupHole false (st.hasNode x.ino) p' (x.index + k) = some cur :=
                    (lookupHole_false hlevel hnoffset).trans hlook
                  exact absurd (hsame.symm.trans hlook'') (by simp)

/-- A block that has an address is found. -/
lemma getDnode_reached (hreach : st.Reached E x) :
    ∃ o e, f2fsGetDnodeOfData E st x .lookup none = (.found o e, st) := by
  obtain ⟨p, hp, hlook⟩ := hreach
  exact ⟨p.ofsInNode, addrsPerPage (E.lay x.ino) p.level, by simp [f2fsGetDnodeOfData, hp, hlook]⟩

end Dnode

/-! ## What a block holds -/

/-- What a block holds; a hole holds nothing. -/
def Blocks.held (E : FsEnv V) (st : Blocks V) (x : Slot) : Option V :=
  if st.addr x = nullAddr then none else some (st.pageOf E x)

section Held

variable {E : FsEnv V} {st st' : Blocks V} {x y : Slot}

lemma held_eq_none : st.held E x = none ↔ st.addr x = nullAddr := by
  rw [Blocks.held]
  split_ifs with h
  · exact iff_of_true rfl h
  · exact iff_of_false (by simp) h

/-- What a block holds depends on its slot and its page. -/
lemma held_congr (haddr : st'.addr x = st.addr x) (hpages : st'.pages x = st.pages x)
    (hcontent : st'.content = st.content) : st'.held E x = st.held E x := by
  rw [Blocks.held, Blocks.held, Blocks.pageOf, Blocks.pageOf, haddr, hpages, hcontent]

lemma SameFiles.held (h : SameFiles st st') : st'.held E = st.held E := by
  funext x
  exact held_congr (congrFun h.addr x) (congrFun h.pages x) h.content

lemma held_truncateSlot : (st.truncateSlot x).held E = Function.update (st.held E) x none := by
  funext y
  by_cases hy : y = x
  · subst hy
    rw [Function.update_self, held_eq_none, truncateSlot_addr, Function.update_self]
  · rw [Function.update_of_ne hy]
    refine held_congr ?_ (congrFun truncateSlot_pages y) truncateSlot_content
    rw [truncateSlot_addr, Function.update_of_ne hy]

/-- A block that is moved between slots without dirty pages. -/
lemma held_moveSlot (hne : x ≠ y) (hx : st.pages x = none) (hy : st.pages y = none) :
    (st.moveSlot x y).held E
      = Function.update (Function.update (st.held E) x none) y (st.held E x) := by
  funext z
  by_cases hzy : z = y
  · subst hzy
    rw [Function.update_self, Blocks.held, Blocks.held, moveSlot_addr, if_pos rfl, Blocks.pageOf,
      Blocks.pageOf, moveSlot_addr, if_pos rfl, hx]
    show (if _ then _ else some ((st.pages z).getD _)) = _
    rw [hy]
    rfl
  · rw [Function.update_of_ne hzy]
    by_cases hzx : z = x
    · subst hzx
      rw [Function.update_self, held_eq_none, moveSlot_addr, if_neg hzy, if_pos rfl]
    · rw [Function.update_of_ne hzx]
      exact held_congr (by rw [moveSlot_addr, if_neg hzy, if_neg hzx]) rfl rfl

end Held

/-! ## How far the exchange is -/

/-- Block `n` follows, over holes, a block that has been taken out of the source. -/
def AfterTaken (E : FsEnv V) (r : Rows Slot) (v₀ : Blocks V) (n : ℕ) : Prop :=
  ∃ j < n, E.isCheckpointedData (v₀.addr (r.source j)) = false ∧
    ∀ k, j < k → k < n → v₀.addr (r.source k) = nullAddr

/-- When the destination of a hole is emptied. -/
def MayCut (E : FsEnv V) (r : Rows Slot) (v₀ : Blocks V) (full : Bool) (n : ℕ) : Prop :=
  full = true ∨ AfterTaken E r v₀ n

/-- **The first `n` blocks have been moved.** -/
structure Progress (E : FsEnv V) (r : Rows Slot) (full : Bool) (v₀ : Blocks V) (n : ℕ)
    (v : Blocks V) : Prop where
  wf : Wf E v
  content : v.content = v₀.content
  run : Run r (MayCut E r v₀ full) (fun _ => full = false) (v₀.held E) n (v.held E)
  ahead : ∀ k, n ≤ k → k < r.len → v.addr (r.source k) = v₀.addr (r.source k)
  sourcePages : ∀ k, n ≤ k → k < r.len → v.pages (r.source k) = none
  destPages : ∀ k, n ≤ k → k < r.len → v.pages (r.dest k) = none
  gone : ∀ k < n, IsValidBlkaddr (v₀.addr (r.source k)) →
    ∀ x, v.addr x = v₀.addr (r.source k) → x = r.dest k

/-- **Something has failed at block `n`**: what is before it has been moved, and the rest is where it
was. -/
structure Halted (E : FsEnv V) (r : Rows Slot) (v₀ : Blocks V) (n : ℕ) (v : Blocks V) : Prop where
  wf : Wf E v
  moved : ∀ k < n, v₀.held E (r.source k) ≠ none → v.held E (r.dest k) = v₀.held E (r.source k)
  gone : ∀ k < n, IsValidBlkaddr (v₀.addr (r.source k)) →
    ∀ x, v.addr x = v₀.addr (r.source k) → x = r.dest k
  ahead : ∀ k, n ≤ k → k < r.len → v.addr (r.source k) = v₀.addr (r.source k) ∧
    v.held E (r.source k) = v₀.held E (r.source k)

section Steps

variable {E : FsEnv V} {r : Rows Slot} {full : Bool} {v₀ v v' : Blocks V} {n : ℕ}

lemma Progress.same (h : Progress E r full v₀ n v) (hwf : Wf E v') (hs : SameFiles v v') :
    Progress E r full v₀ n v' := by
  refine ⟨hwf, hs.content.trans h.content, hs.held.symm ▸ h.run, ?_, ?_, ?_, ?_⟩
  · rw [hs.addr]
    exact h.ahead
  · rw [hs.pages]
    exact h.sourcePages
  · rw [hs.pages]
    exact h.destPages
  · rw [hs.addr]
    exact h.gone

lemma Progress.heldSource (h : Progress E r full v₀ n v) (hn : n ≤ r.len) {k : ℕ} (hnk : n ≤ k)
    (hk : k < r.len) : v.held E (r.source k) = v₀.held E (r.source k) :=
  (h.run.moved hn).untouched hnk hk

lemma Progress.halted (h : Progress E r full v₀ n v) (hn : n ≤ r.len) : Halted E r v₀ n v :=
  ⟨h.wf, (h.run.moved hn).moved, h.gone,
    fun k hnk hk => ⟨h.ahead k hnk hk, h.heldSource hn hnk hk⟩⟩

/-- A slot of the rows that lies further ahead. -/
lemma source_ne {k : ℕ} (hnk : n < k) : r.source k ≠ r.source n := fun heq => by
  have := r.source_inj heq
  omega

lemma dest_ne {k : ℕ} (hnk : k ≠ n) : r.dest k ≠ r.dest n := fun heq => hnk (r.dest_inj heq)

/-- A hole whose destination is left alone. -/
lemma Progress.keep (h : Progress E r full v₀ n v) (hn : n < r.len)
    (hhole : v₀.addr (r.source n) = nullAddr) (hfull : full = false) :
    Progress E r full v₀ (n + 1) v := by
  have hnone : v.held E (r.source n) = none := held_eq_none.mpr ((h.ahead n le_rfl hn).trans hhole)
  refine ⟨h.wf, h.content, h.run.step (.keep hnone hfull), fun k hk => h.ahead k (by omega),
    fun k hk => h.sourcePages k (by omega), fun k hk => h.destPages k (by omega),
    fun k hk hvalid => ?_⟩
  rcases Nat.lt_succ_iff_lt_or_eq.mp hk with hlt | rfl
  · exact h.gone k hlt hvalid
  · exact absurd hhole hvalid.1

/-- A hole whose destination is emptied. -/
lemma Progress.cut (h : Progress E r full v₀ n v) (hn : n < r.len)
    (hhole : v₀.addr (r.source n) = nullAddr) (hcut : MayCut E r v₀ full n) :
    Progress E r full v₀ (n + 1) (v.truncateSlot (r.dest n)) := by
  have hnone : v.held E (r.source n) = none := held_eq_none.mpr ((h.ahead n le_rfl hn).trans hhole)
  refine ⟨h.wf.truncateSlot _, truncateSlot_content.trans h.content, ?_, fun k hk hlen => ?_,
    fun k hk hlen => ?_, fun k hk hlen => ?_, fun k hk hvalid x hx => ?_⟩
  · rw [held_truncateSlot]
    exact h.run.step (.cut hnone hcut)
  · rw [truncateSlot_addr, Function.update_of_ne (r.ahead n k (by omega) hlen).symm]
    exact h.ahead k (by omega) hlen
  · rw [truncateSlot_pages]
    exact h.sourcePages k (by omega) hlen
  · rw [truncateSlot_pages]
    exact h.destPages k (by omega) hlen
  · rw [truncateSlot_addr] at hx
    rw [(cleared_ne (hx ▸ hvalid.1)).2] at hx
    rcases Nat.lt_succ_iff_lt_or_eq.mp hk with hlt | rfl
    · exact h.gone k hlt hvalid x hx
    · exact absurd hhole hvalid.1

/-- **A block whose address is put in at the destination.** -/
lemma Progress.replace (h : Progress E r full v₀ n v) (hn : n < r.len)
    (hvalid : IsValidBlkaddr (v₀.addr (r.source n))) (hreach : v.Reached E (r.dest n)) :
    Progress E r full v₀ (n + 1)
      ((v.truncateSlot (r.dest n)).moveSlot (r.source n) (r.dest n)) := by
  have hne : r.source n ≠ r.dest n := (r.ahead n n le_rfl hn).symm
  have hsource := h.ahead n le_rfl hn
  set v₁ := v.truncateSlot (r.dest n) with hv₁
  have haddr₁ : v₁.addr = Function.update v.addr (r.dest n) nullAddr := truncateSlot_addr _ _
  have hsource₁ : v₁.addr (r.source n) = v₀.addr (r.source n) := by
    rw [haddr₁, Function.update_of_ne hne, hsource]
  have hempty₁ : v₁.addr (r.dest n) = nullAddr := by rw [haddr₁, Function.update_self]
  have hpages₁ : v₁.pages = v.pages := truncateSlot_pages
  have hreach₁ : v₁.Reached E (r.dest n) := Reached.congr hreach truncateSlot_nodes.ge
  refine ⟨(h.wf.truncateSlot _).moveSlot (hsource₁ ▸ hvalid) hempty₁ hreach₁,
    truncateSlot_content.trans h.content, ?_, fun k hk hlen => ?_, fun k hk hlen => ?_,
    fun k hk hlen => ?_, fun k hk hvalid' x hx => ?_⟩
  · have hfull : v.held E (r.source n) ≠ none := by
      rw [Ne, held_eq_none, hsource]
      exact hvalid.1
    rw [held_moveSlot hne (by rw [hpages₁]; exact h.sourcePages n le_rfl hn)
      (by rw [hpages₁]; exact h.destPages n le_rfl hn), hv₁, held_truncateSlot,
      Function.update_of_ne hne, Function.update_comm hne.symm, Function.update_idem]
    exact h.run.step (.move hfull)
  · rw [moveSlot_addr, if_neg (r.ahead n k (by omega) hlen).symm, if_neg (source_ne hk), haddr₁,
      Function.update_of_ne (r.ahead n k (by omega) hlen).symm]
    exact h.ahead k (by omega) hlen
  · show v₁.pages _ = none
    rw [hpages₁]
    exact h.sourcePages k (by omega) hlen
  · show v₁.pages _ = none
    rw [hpages₁]
    exact h.destPages k (by omega) hlen
  · rw [moveSlot_addr, hsource₁] at hx
    split_ifs at hx with hxd hxs
    · -- the address that has been put in
      rcases Nat.lt_succ_iff_lt_or_eq.mp hk with hlt | rfl
      · exact absurd (h.gone k hlt hvalid' _ (hsource.trans hx)).symm (r.ahead k n hlt.le hn)
      · exact hxd
    · exact absurd hx.symm hvalid'.1
    · rw [haddr₁, Function.update_of_ne hxd] at hx
      rcases Nat.lt_succ_iff_lt_or_eq.mp hk with hlt | rfl
      · exact h.gone k hlt hvalid' x hx
      · exact absurd (h.wf.owner x _ (hx ▸ hvalid') (hx.trans hsource.symm)) hxs

/-- What is done to slot `y` before a page is copied into it. -/
structure Prepared (E : FsEnv V) (y : Slot) (v v' : Blocks V) : Prop where
  wf : Wf E v'
  content : v'.content = v.content
  pages : ∀ x, x ≠ y → v'.pages x = v.pages x
  addr : v'.addr = v.addr ∨ v'.addr = Function.update v.addr y newAddr

lemma Prepared.addr_of_ne {x y : Slot} (h : Prepared E y v v') (hxy : x ≠ y) :
    v'.addr x = v.addr x := by
  rcases h.addr with heq | heq
  · rw [heq]
  · rw [heq, Function.update_of_ne hxy]

lemma Prepared.addr_valid {x y : Slot} (h : Prepared E y v v') (hvalid : IsValidBlkaddr (v'.addr x)) :
    v'.addr x = v.addr x := by
  rcases h.addr with heq | heq
  · rw [heq]
  · refine h.addr_of_ne fun hxy => ?_
    rw [heq, hxy, Function.update_self] at hvalid
    exact hvalid.2 rfl

lemma Prepared.held_of_ne {x y : Slot} (h : Prepared E y v v') (hxy : x ≠ y) :
    v'.held E x = v.held E x :=
  held_congr (h.addr_of_ne hxy) (h.pages x hxy) h.content

lemma Halted.prepared (h : Halted E r v₀ n v) (hp : Prepared E (r.dest n) v v') :
    Halted E r v₀ n v' := by
  refine ⟨hp.wf, fun k hk hfull => ?_, fun k hk hvalid x hx => ?_, fun k hk hlen => ?_⟩
  · rw [hp.held_of_ne (dest_ne hk.ne)]
    exact h.moved k hk hfull
  · rw [hp.addr_valid (hx ▸ hvalid)] at hx
    exact h.gone k hk hvalid x hx
  · have hne : r.source k ≠ r.dest n := (r.ahead n k hk hlen).symm
    rw [hp.addr_of_ne hne, hp.held_of_ne hne]
    exact h.ahead k hk hlen

/-- **A block that is copied, and then released.** -/
lemma Progress.copy {w : V} (h : Progress E r full v₀ n v) (hn : n < r.len)
    (hp : Prepared E (r.dest n) v v') (hmapped : v'.addr (r.dest n) ≠ nullAddr)
    (hpage : v'.pages (r.dest n) = some w) (hheld : v.held E (r.source n) = some w) :
    Progress E r full v₀ (n + 1) (v'.truncateSlot (r.source n)) := by
  have hne : r.source n ≠ r.dest n := (r.ahead n n le_rfl hn).symm
  have hsource := h.ahead n le_rfl hn
  have hheld' : v'.held E = Function.update (v.held E) (r.dest n) (some w) := by
    funext x
    by_cases hx : x = r.dest n
    · rw [hx, Function.update_self, Blocks.held, if_neg hmapped, Blocks.pageOf, hpage]
      rfl
    · rw [Function.update_of_ne hx]
      exact hp.held_of_ne hx
  refine ⟨hp.wf.truncateSlot _, truncateSlot_content.trans (hp.content.trans h.content), ?_,
    fun k hk hlen => ?_, fun k hk hlen => ?_, fun k hk hlen => ?_, fun k hk hvalid x hx => ?_⟩
  · have hfull : v.held E (r.source n) ≠ none := by simp [hheld]
    rw [held_truncateSlot, hheld', Function.update_comm hne.symm, ← hheld]
    exact h.run.step (.move hfull)
  · rw [truncateSlot_addr, Function.update_of_ne (source_ne hk),
      hp.addr_of_ne (r.ahead n k (by omega) hlen).symm]
    exact h.ahead k (by omega) hlen
  · rw [truncateSlot_pages, hp.pages _ (r.ahead n k (by omega) hlen).symm]
    exact h.sourcePages k (by omega) hlen
  · rw [truncateSlot_pages, hp.pages _ (dest_ne (by omega))]
    exact h.destPages k (by omega) hlen
  · rw [truncateSlot_addr] at hx
    obtain ⟨hxs, hx'⟩ := cleared_ne (hx ▸ hvalid.1)
    rw [hx'] at hx
    have hxv : v.addr x = v₀.addr (r.source k) := (hp.addr_valid (hx ▸ hvalid)).symm.trans hx
    rcases Nat.lt_succ_iff_lt_or_eq.mp hk with hlt | rfl
    · exact h.gone k hlt hvalid x hxv
    · exact absurd (h.wf.owner x _ (hxv ▸ hvalid) (hxv.trans hsource.symm)) hxs

end Steps

/-! ## A block that is copied -/

section Copy

variable {E : FsEnv V} {st st' : Blocks V} {x y : Slot} {b : Bool} {w : V}

lemma sameFiles_tick (st : Blocks V) : SameFiles st st.tick :=
  ⟨rfl, rfl, rfl, Finset.Subset.refl _⟩

lemma Wf.tick (h : Wf E st) : Wf E st.tick := h.congr rfl rfl rfl rfl rfl

lemma Wf.growSize (h : Wf E st) : Wf E (st.growSize x) := h.congr rfl rfl rfl rfl rfl

lemma getLockDataPage_spec {ow : Option V} (h : Wf E st)
    (hr : f2fsGetLockDataPage E st x = (ow, st')) :
    Wf E st' ∧ SameFiles st st' ∧ ∀ w ∈ ow, st.held E x = some w := by
  have hdn := getDnode_spec h.tick x .lookup (E.fault st.calls)
  rw [f2fsGetLockDataPage] at hr
  generalize f2fsGetDnodeOfData E st.tick x .lookup (E.fault st.calls) = d at hdn hr
  obtain ⟨d, st₁⟩ := d
  obtain ⟨hwf, hsame⟩ := hdn
  have hsame₁ : SameFiles st st₁ := (sameFiles_tick st).trans hsame
  cases d with
  | error =>
      obtain ⟨rfl, rfl⟩ := Prod.mk.inj hr
      exact ⟨hwf, hsame₁, by simp⟩
  | enoent m o =>
      obtain ⟨rfl, rfl⟩ := Prod.mk.inj hr
      exact ⟨hwf, hsame₁, by simp⟩
  | found o e =>
      simp only [] at hr
      split_ifs at hr with hnull hfault
      · obtain ⟨rfl, rfl⟩ := Prod.mk.inj hr
        exact ⟨hwf, hsame₁, by simp⟩
      · obtain ⟨rfl, rfl⟩ := Prod.mk.inj hr
        exact ⟨hwf.tick, hsame₁.trans (sameFiles_tick st₁), by simp⟩
      · obtain ⟨rfl, rfl⟩ := Prod.mk.inj hr
        refine ⟨hwf.tick, hsame₁.trans (sameFiles_tick st₁), fun w hw => ?_⟩
        rw [← hsame₁.held, Blocks.held, if_neg hnull]
        exact hw

lemma SameFiles.prepared (hs : SameFiles st st') (hwf : Wf E st') : Prepared E y st st' :=
  ⟨hwf, hs.content, fun x _ => congrFun hs.pages x, Or.inl hs.addr⟩

lemma getNewDataPage_spec (h : Wf E st) (hr : f2fsGetNewDataPage E st y = (b, st')) :
    Prepared E y st st' ∧ (b = true → st'.addr y ≠ nullAddr) := by
  rw [f2fsGetNewDataPage] at hr
  split_ifs at hr with hgrab
  · obtain ⟨rfl, rfl⟩ := Prod.mk.inj hr
    exact ⟨(sameFiles_tick st).prepared h.tick, by simp⟩
  · have hdn := getDnode_spec h.tick.tick y .alloc (E.fault st.tick.calls)
    have hreach : ∀ o e st₁, f2fsGetDnodeOfData E st.tick.tick y .alloc (E.fault st.tick.calls)
        = (.found o e, st₁) → st₁.Reached E y := by
      intro o e st₁ hfound
      obtain ⟨hlt, hreach⟩ := getDnode_found h.tick.tick hfound
      exact hreach 0 (by omega)
    simp only [] at hr
    generalize f2fsGetDnodeOfData E st.tick.tick y .alloc (E.fault st.tick.calls) = d
      at hdn hr hreach
    obtain ⟨d, st₁⟩ := d
    obtain ⟨hwf, hsame⟩ := hdn
    have hsame₁ : SameFiles st st₁ := ((sameFiles_tick st).trans (sameFiles_tick _)).trans hsame
    have hsame₂ : SameFiles st st₁.tick := hsame₁.trans (sameFiles_tick st₁)
    cases d with
    | error =>
        obtain ⟨rfl, rfl⟩ := Prod.mk.inj hr
        exact ⟨hsame₁.prepared hwf, by simp⟩
    | enoent m o =>
        obtain ⟨rfl, rfl⟩ := Prod.mk.inj hr
        exact ⟨hsame₁.prepared hwf, by simp⟩
    | found o e =>
        simp only [] at hr
        split_ifs at hr with hnull hfault hfault
        · obtain ⟨rfl, rfl⟩ := Prod.mk.inj hr
          exact ⟨hsame₂.prepared hwf.tick, by simp⟩
        · obtain ⟨rfl, rfl⟩ := Prod.mk.inj hr
          have hreached : st₁.tick.Reached E y :=
            Reached.congr (hreach o e st₁ rfl) (Finset.Subset.refl _)
          refine ⟨⟨(hwf.tick.reserveSlot hnull hreached).growSize, hsame₁.content,
            fun x _ => congrFun hsame₁.pages x, Or.inr ?_⟩, fun _ => ?_⟩
          · show Function.update st₁.addr y newAddr = _
            rw [hsame₁.addr]
          · show Function.update st₁.addr y newAddr y ≠ nullAddr
            rw [Function.update_self]
            decide
        · obtain ⟨rfl, rfl⟩ := Prod.mk.inj hr
          exact ⟨hsame₂.prepared hwf.tick, by simp⟩
        · obtain ⟨rfl, rfl⟩ := Prod.mk.inj hr
          have hsame₃ : SameFiles st (st₁.tick.growSize y) :=
            hsame₂.trans ⟨rfl, rfl, rfl, Finset.Subset.refl _⟩
          exact ⟨hsame₃.prepared hwf.tick.growSize, fun _ => hnull⟩

/-- A block that has an address is released, unless its dnode cannot be read. -/
lemma truncateHole_spec (h : Wf E st) (hx : st.addr x ≠ nullAddr)
    (hr : f2fsTruncateHole E st x = (b, st')) :
    st' = if b then st.tick.truncateSlot x else st.tick := by
  rw [f2fsTruncateHole] at hr
  cases hfault : E.fault st.calls with
  | some k =>
      obtain ⟨p, hp, -⟩ := h.reached x hx
      simp only [f2fsGetDnodeOfData, hp, hfault] at hr
      obtain ⟨rfl, rfl⟩ := Prod.mk.inj hr
      rfl
  | none =>
      obtain ⟨o, e, hfound⟩ := getDnode_reached (h.tick.reached x hx)
      rw [hfault, hfound] at hr
      obtain ⟨rfl, rfl⟩ := Prod.mk.inj hr
      rfl

/-! ### Other slots are not written -/

lemma getLockDataPage_addr (E : FsEnv V) (st : Blocks V) (x : Slot) :
    (f2fsGetLockDataPage E st x).2.addr = st.addr := by
  have hdn := getDnode_addr E st.tick x .lookup (E.fault st.calls)
  rw [f2fsGetLockDataPage]
  cases hr : f2fsGetDnodeOfData E st.tick x .lookup (E.fault st.calls) with
  | mk d st₁ =>
      rw [hr] at hdn
      cases d with
      | error => exact hdn
      | enoent m o => exact hdn
      | found o e =>
          simp only []
          split_ifs <;> exact hdn

lemma getNewDataPage_addr (E : FsEnv V) (st : Blocks V) {z : Slot} (hz : z ≠ y) :
    (f2fsGetNewDataPage E st y).2.addr z = st.addr z := by
  have hdn := getDnode_addr E st.tick.tick y .alloc (E.fault st.tick.calls)
  rw [f2fsGetNewDataPage]
  split_ifs
  · rfl
  · simp only []
    cases hr : f2fsGetDnodeOfData E st.tick.tick y .alloc (E.fault st.tick.calls) with
    | mk d st₁ =>
        rw [hr] at hdn
        have haddr : st₁.addr z = st.addr z := congrFun hdn z
        cases d with
        | error => exact haddr
        | enoent m o => exact haddr
        | found o e =>
            simp only []
            split_ifs
            · exact haddr
            · show Function.update st₁.addr y newAddr z = _
              rw [Function.update_of_ne hz]
              exact haddr
            · exact haddr
            · exact haddr

lemma truncateHole_addr (E : FsEnv V) (st : Blocks V) {z : Slot} (hz : z ≠ x) :
    (f2fsTruncateHole E st x).2.addr z = st.addr z := by
  have hdn := getDnode_addr E st.tick x .lookup (E.fault st.calls)
  rw [f2fsTruncateHole]
  cases hr : f2fsGetDnodeOfData E st.tick x .lookup (E.fault st.calls) with
  | mk d st₁ =>
      rw [hr] at hdn
      have haddr : st₁.addr z = st.addr z := congrFun hdn z
      cases d with
      | error => exact haddr
      | enoent m o => exact haddr
      | found o e =>
          show (st₁.truncateSlot x).addr z = _
          rw [truncateSlot_addr, Function.update_of_ne hz]
          exact haddr

lemma copyBlock_addr {z : Slot} (hr : copyBlock E x y st = (b, st')) (hx : z ≠ x) (hy : z ≠ y) :
    st'.addr z = st.addr z := by
  rw [copyBlock] at hr
  have hlock := getLockDataPage_addr E st x
  cases hr₁ : f2fsGetLockDataPage E st x with
  | mk ow st₁ =>
      rw [hr₁] at hr hlock
      cases ow with
      | none =>
          obtain ⟨rfl, rfl⟩ := Prod.mk.inj hr
          exact congrFun hlock z
      | some w =>
          simp only [] at hr
          have hnew := getNewDataPage_addr E st₁ hy
          cases hr₂ : f2fsGetNewDataPage E st₁ y with
          | mk b₂ st₂ =>
              rw [hr₂] at hr hnew
              have haddr : st₂.addr z = st.addr z := hnew.trans (congrFun hlock z)
              cases b₂ with
              | false =>
                  obtain ⟨rfl, rfl⟩ := Prod.mk.inj hr
                  exact haddr
              | true =>
                  have hhole := truncateHole_addr E
                    { st₂ with pages := Function.update st₂.pages y (some w) } hx
                  simp only [] at hr
                  rw [hr] at hhole
                  exact hhole.trans haddr

lemma copyBlock_spec {r : Rows Slot} {full : Bool} {v₀ : Blocks V} {n : ℕ}
    (h : Progress E r full v₀ n st) (hn : n < r.len)
    (hr : copyBlock E (r.source n) (r.dest n) st = (b, st')) :
    if b then Progress E r full v₀ (n + 1) st' else Halted E r v₀ n st' := by
  rw [copyBlock] at hr
  have hhalted := h.halted hn.le
  cases hlock : f2fsGetLockDataPage E st (r.source n) with
  | mk ow st₁ =>
      obtain ⟨hwf₁, hsame₁, hheld⟩ := getLockDataPage_spec h.wf hlock
      have hprog₁ := h.same hwf₁ hsame₁
      rw [hlock] at hr
      cases ow with
      | none =>
          obtain ⟨rfl, rfl⟩ := Prod.mk.inj hr
          exact hprog₁.halted hn.le
      | some w =>
          have hheld₁ : st₁.held E (r.source n) = some w := by
            rw [hsame₁.held]
            exact hheld w rfl
          simp only [] at hr
          cases hnew : f2fsGetNewDataPage E st₁ (r.dest n) with
          | mk b₂ st₂ =>
              obtain ⟨hprep, hmapped⟩ := getNewDataPage_spec hwf₁ hnew
              rw [hnew] at hr
              cases b₂ with
              | false =>
                  obtain ⟨rfl, rfl⟩ := Prod.mk.inj hr
                  exact (hprog₁.halted hn.le).prepared hprep
              | true =>
                  set st₃ : Blocks V :=
                    { st₂ with pages := Function.update st₂.pages (r.dest n) (some w) } with hst₃
                  have hprep₃ : Prepared E (r.dest n) st₁ st₃.tick :=
                    ⟨hprep.wf.congr rfl rfl rfl rfl rfl, hprep.content, fun x hx => by
                      show Function.update st₂.pages (r.dest n) (some w) x = _
                      rw [Function.update_of_ne hx]
                      exact hprep.pages x hx, hprep.addr⟩
                  have hwf₃ : Wf E st₃ := hprep.wf.congr rfl rfl rfl rfl rfl
                  have hsource : st₃.addr (r.source n) ≠ nullAddr := by
                    have hfull : st₁.held E (r.source n) ≠ none := by simp [hheld₁]
                    rw [Ne, held_eq_none] at hfull
                    exact (hprep.addr_of_ne (r.ahead n n le_rfl hn).symm).symm ▸ hfull
                  have hst' := truncateHole_spec hwf₃ hsource hr
                  cases b with
                  | false =>
                      rw [hst']
                      exact (hprog₁.halted hn.le).prepared hprep₃
                  | true =>
                      rw [hst']
                      exact hprog₁.copy hn hprep₃ (hmapped rfl) (Function.update_self _ _ _) hheld₁

end Copy

end Hoit.BlockExchange
