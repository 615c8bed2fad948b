import HoitF2fs.Node.BlockExchange

/-!
# Runs of the block exchange

While blocks are exchanged some addresses are in no file: they have been taken out of the source, and
have not been put in at the destination.

* `Taken.hand` — the addresses in hand, by the slots they come from.
* `putBack` — the files as they would be with everything in hand back in its place.  **This is what
  every step is about**: taking an address out does not change it, and putting one in at the
  destination moves one block.
* `Settled` — something has failed, and what was in hand has been put back.  A block whose node cannot
  be read at that moment is released.

`exchange_data_block_keeps` says what becomes of the blocks, whether the exchange goes through or not.
-/

namespace Hoit.BlockExchange

open NodePath Blocks SlotMove

variable {V : Type}

/-! ## What is in hand -/

/-- The addresses in hand, by the slots they have been taken from. -/
def Taken.hand (t : Taken) (inode off len : ℕ) (x : Slot) : Option (BitVec 32) :=
  if x.ino = inode ∧ off ≤ x.index ∧ x.index < off + len ∧ t.doReplace (x.index - off) = true then
    some (t.blkaddr (x.index - off))
  else none

/-- The files with everything in hand back in its place. -/
def Blocks.putBack (st : Blocks V) (hand : Slot → Option (BitVec 32)) : Blocks V :=
  { st with addr := fun x => (hand x).getD (st.addr x) }

section PutBack

variable {E : FsEnv V} {st : Blocks V} {hand : Slot → Option (BitVec 32)} {x y : Slot}
  {a : BitVec 32} {mode : NodeMode} {fail : Option ℕ}

lemma putBack_addr (hx : hand x = none) : (st.putBack hand).addr x = st.addr x := by
  simp only [Blocks.putBack, hx, Option.getD_none]

lemma putBack_none (h : ∀ x, hand x = none) : st.putBack hand = st := by
  have haddr : (fun x => (hand x).getD (st.addr x)) = st.addr := by
    funext x
    rw [h x, Option.getD_none]
  rw [Blocks.putBack, haddr]

lemma putBack_setAddr (st : Blocks V) (hy : hand y = none) :
    (st.putBack hand).setAddr y a = (st.setAddr y a).putBack hand := by
  have haddr : Function.update (fun x => (hand x).getD (st.addr x)) y a
      = fun x => (hand x).getD (Function.update st.addr y a x) := by
    funext x
    by_cases hx : x = y
    · subst hx
      rw [Function.update_self, Function.update_self, hy, Option.getD_none]
    · rw [Function.update_of_ne hx, Function.update_of_ne hx]
  simp only [Blocks.setAddr, Blocks.putBack, haddr]

lemma putBack_invalidateBlocks :
    (st.putBack hand).invalidateBlocks a = (st.invalidateBlocks a).putBack hand := by
  rw [invalidateBlocks, invalidateBlocks]
  split_ifs <;> rfl

lemma putBack_truncateSlot (hy : hand y = none) :
    (st.putBack hand).truncateSlot y = (st.truncateSlot y).putBack hand := by
  rw [Blocks.truncateSlot, Blocks.truncateSlot, putBack_addr hy]
  split_ifs
  · rfl
  · rw [putBack_setAddr st hy, putBack_invalidateBlocks]
    rfl

lemma putBack_reserveSlot (hy : hand y = none) :
    (st.putBack hand).reserveSlot y = (st.reserveSlot y).putBack hand :=
  putBack_setAddr (st.addValidBlockCount y.ino 1) hy

lemma putBack_newNode (ino n : ℕ) :
    (st.putBack hand).newNode ino n = (st.newNode ino n).putBack hand := by
  rw [Blocks.newNode, Blocks.newNode]
  show (if (ino, n) ∈ st.nodes then _ else _) = _
  split_ifs <;> rfl

lemma putBack_newNodes (ino : ℕ) (p : Path) (k : ℕ) :
    (st.putBack hand).newNodes ino p k = (st.newNodes ino p k).putBack hand := by
  rw [Blocks.newNodes, Blocks.newNodes]
  generalize List.range' 1 k = is
  induction is generalizing st with
  | nil => rfl
  | cons i is ih =>
      rw [List.foldl_cons, List.foldl_cons, putBack_newNode]
      exact ih

/-- Finding a dnode has nothing to do with what is in hand. -/
lemma putBack_getDnode : f2fsGetDnodeOfData E (st.putBack hand) x mode fail =
    ((f2fsGetDnodeOfData E st x mode fail).1,
      (f2fsGetDnodeOfData E st x mode fail).2.putBack hand) := by
  rw [f2fsGetDnodeOfData, f2fsGetDnodeOfData]
  cases getNodePath (E.lay x.ino) x.index with
  | none => rfl
  | some p =>
      cases fail with
      | some k =>
          cases mode with
          | alloc => simp only [putBack_newNodes]
          | lookup => rfl
      | none =>
          cases mode with
          | alloc => simp only [putBack_newNodes]
          | lookup =>
              have hnode : (st.putBack hand).hasNode x.ino = st.hasNode x.ino := rfl
              simp only [hnode]
              cases lookupHole false (st.hasNode x.ino) p x.index with
              | some cur => simp only
              | none => simp only

lemma putBack_tick : (st.putBack hand).tick = st.tick.putBack hand := rfl

lemma putBack_calls : (st.putBack hand).calls = st.calls := rfl

lemma putBack_getLockDataPage (hx : hand x = none) : f2fsGetLockDataPage E (st.putBack hand) x =
    ((f2fsGetLockDataPage E st x).1, (f2fsGetLockDataPage E st x).2.putBack hand) := by
  simp only [f2fsGetLockDataPage, putBack_tick, putBack_calls, putBack_getDnode]
  cases f2fsGetDnodeOfData E st.tick x .lookup (E.fault st.calls) with
  | mk d st₁ =>
      cases d with
      | error => rfl
      | enoent m o => rfl
      | found o e =>
          have hpage : (st₁.putBack hand).pageOf E x = st₁.pageOf E x := by
            rw [pageOf, pageOf, putBack_addr hx]
            rfl
          simp only [putBack_addr hx, hpage, putBack_calls, putBack_tick]
          split_ifs <;> rfl

lemma putBack_getNewDataPage (hy : hand y = none) : f2fsGetNewDataPage E (st.putBack hand) y =
    ((f2fsGetNewDataPage E st y).1, (f2fsGetNewDataPage E st y).2.putBack hand) := by
  simp only [f2fsGetNewDataPage, putBack_tick, putBack_calls, putBack_getDnode]
  split_ifs with hgrab
  · rfl
  · cases f2fsGetDnodeOfData E st.tick.tick y .alloc (E.fault st.tick.calls) with
    | mk d st₁ =>
        cases d with
        | error => rfl
        | enoent m o => rfl
        | found o e =>
            have hpages : (st₁.putBack hand).pages = st₁.pages := rfl
            simp only [putBack_addr hy, hpages, putBack_calls, putBack_tick, putBack_reserveSlot hy]
            split_ifs <;> rfl

lemma putBack_truncateHole (st : Blocks V) (hx : hand x = none) : f2fsTruncateHole E (st.putBack hand) x =
    ((f2fsTruncateHole E st x).1, (f2fsTruncateHole E st x).2.putBack hand) := by
  simp only [f2fsTruncateHole, putBack_tick, putBack_calls, putBack_getDnode]
  cases f2fsGetDnodeOfData E st.tick x .lookup (E.fault st.calls) with
  | mk d st₁ =>
      cases d with
      | error => rfl
      | enoent m o => rfl
      | found o e => simp only [putBack_truncateSlot hx]

/-- **Copying a block has nothing to do with what is in hand.** -/
lemma putBack_copyBlock (E : FsEnv V) (st : Blocks V) (hx : hand x = none) (hy : hand y = none) :
    copyBlock E x y (st.putBack hand) =
      ((copyBlock E x y st).1, (copyBlock E x y st).2.putBack hand) := by
  simp only [copyBlock, putBack_getLockDataPage hx]
  cases f2fsGetLockDataPage E st x with
  | mk ow st₁ =>
      cases ow with
      | none => rfl
      | some w =>
          simp only [putBack_getNewDataPage hy]
          cases f2fsGetNewDataPage E st₁ y with
          | mk b st₂ =>
              cases b with
              | false => rfl
              | true =>
                  exact putBack_truncateHole
                    { st₂ with pages := Function.update st₂.pages y (some w) } hx

/-- **An address that is put in at the destination moves one block.** -/
lemma putBack_replaceBlock (hx : hand x = some a) (hy : hand y = none)
    (hnull : st.addr x = nullAddr) :
    (replaceBlock x.ino y a st).putBack (Function.update hand x none)
      = (st.putBack hand).moveSlot x y := by
  have hne : x ≠ y := by
    rintro rfl
    rw [hx] at hy
    exact absurd hy (by simp)
  have hsource : (st.putBack hand).addr x = a := by simp only [Blocks.putBack, hx, Option.getD_some]
  have haddr : (fun z => (Function.update hand x none z).getD (Function.update st.addr y a z))
      = Function.update (Function.update (fun z => (hand z).getD (st.addr z)) x nullAddr) y a := by
    funext z
    by_cases hzy : z = y
    · subst hzy
      rw [Function.update_self, Function.update_self, Function.update_of_ne hne.symm, hy,
        Option.getD_none]
    · rw [Function.update_of_ne hzy, Function.update_of_ne hzy]
      by_cases hzx : z = x
      · subst hzx
        rw [Function.update_self, Function.update_self, Option.getD_none, hnull]
      · rw [Function.update_of_ne hzx, Function.update_of_ne hzx]
  rw [Blocks.moveSlot, hsource]
  simp only [replaceBlock, Blocks.putBack, setAddr, iBlocksWrite, haddr]

/-- An address that goes back to its slot. -/
lemma putBack_restore (hx : hand x = some a) :
    (st.setAddr x a).putBack (Function.update hand x none) = st.putBack hand := by
  have haddr : (fun z => (Function.update hand x none z).getD (Function.update st.addr x a z))
      = fun z => (hand z).getD (st.addr z) := by
    funext z
    by_cases hz : z = x
    · subst hz
      rw [Function.update_self, Function.update_self, hx, Option.getD_none, Option.getD_some]
    · rw [Function.update_of_ne hz, Function.update_of_ne hz]
  simp only [Blocks.putBack, setAddr, haddr]

/-- An address that is taken out of its slot. -/
lemma putBack_takeOut (hx : hand x = none) (ha : st.addr x = a) (b : BitVec 32) :
    (st.setAddr x b).putBack (Function.update hand x (some a)) = st.putBack hand := by
  have haddr : (fun z => (Function.update hand x (some a) z).getD (Function.update st.addr x b z))
      = fun z => (hand z).getD (st.addr z) := by
    funext z
    by_cases hz : z = x
    · subst hz
      rw [Function.update_self, hx, Option.getD_some, Option.getD_none, ha]
    · rw [Function.update_of_ne hz, Function.update_of_ne hz]
  simp only [Blocks.putBack, setAddr, haddr]

/-- A block in hand that is released. -/
lemma putBack_release (hx : hand x = some a) (ha : a ≠ nullAddr) (hnull : st.addr x = nullAddr) :
    ((st.addValidBlockCount x.ino (-1)).invalidateBlocks a).putBack (Function.update hand x none)
      = (st.putBack hand).truncateSlot x := by
  have hsource : (st.putBack hand).addr x = a := by simp only [Blocks.putBack, hx, Option.getD_some]
  have haddr : (fun z => (Function.update hand x none z).getD (st.addr z))
      = Function.update (fun z => (hand z).getD (st.addr z)) x nullAddr := by
    funext z
    by_cases hz : z = x
    · subst hz
      rw [Function.update_self, Function.update_self, Option.getD_none, hnull]
    · rw [Function.update_of_ne hz, Function.update_of_ne hz]
  rw [Blocks.truncateSlot, hsource, if_neg ha, invalidateBlocks, invalidateBlocks]
  split_ifs
  · simp only [Blocks.putBack, setAddr, addValidBlockCount, iBlocksWrite, haddr]
  · simp only [Blocks.putBack, setAddr, addValidBlockCount, iBlocksWrite, haddr]

end PutBack

/-! ## The arrays -/

section Arrays

variable {t : Taken} {inode off len i k : ℕ} {x : Slot} {a : BitVec 32}

lemma hand_slot (hk : k < len) :
    t.hand inode off len ⟨inode, off + k⟩ = if t.doReplace k then some (t.blkaddr k) else none := by
  have hsub : off + k - off = k := Nat.add_sub_cancel_left off k
  simp only [Taken.hand, hsub, Nat.le_add_right, Nat.add_lt_add_iff_left, hk, true_and]

/-- What is in hand has been taken from the range. -/
lemma hand_eq_some (h : t.hand inode off len x = some a) :
    ∃ k < len, x = ⟨inode, off + k⟩ ∧ t.doReplace k = true ∧ t.blkaddr k = a := by
  rw [Taken.hand] at h
  split_ifs at h with hx
  obtain ⟨hino, hle, hlt, hrep⟩ := hx
  have hindex : off + (x.index - off) = x.index := Nat.add_sub_cancel' hle
  refine ⟨x.index - off, by omega, ?_, hrep, Option.some.inj h⟩
  rw [hindex, ← hino]

lemma hand_eq_none (h : ∀ k < len, x = ⟨inode, off + k⟩ → t.doReplace k = false) :
    t.hand inode off len x = none := by
  cases hx : t.hand inode off len x with
  | none => rfl
  | some a =>
      obtain ⟨k, hk, hxk, hrep, -⟩ := hand_eq_some hx
      exact absurd (hrep.symm.trans (h k hk hxk)) (by simp)

lemma setReplace_self (b : Bool) : (t.setReplace i b).doReplace i = b := Function.update_self _ _ _

lemma setReplace_of_ne (h : k ≠ i) (b : Bool) : (t.setReplace i b).doReplace k = t.doReplace k :=
  Function.update_of_ne h _ _

lemma setReplace_eq_self (h : t.doReplace i = false) : t.setReplace i false = t := by
  rw [Taken.setReplace, ← h, Function.update_eq_self]

/-- The hand, when one flag changes. -/
lemma hand_setReplace (hi : i < len) (b : Bool) : (t.setReplace i b).hand inode off len =
    Function.update (t.hand inode off len) ⟨inode, off + i⟩
      (if b then some (t.blkaddr i) else none) := by
  funext x
  by_cases hx : x = ⟨inode, off + i⟩
  · subst hx
    rw [Function.update_self, hand_slot hi, setReplace_self]
    rfl
  · rw [Function.update_of_ne hx]
    by_cases hrange : x.ino = inode ∧ off ≤ x.index
    · have hne : x.index - off ≠ i := by
        rintro rfl
        exact hx (by rw [Nat.add_sub_cancel' hrange.2, ← hrange.1])
      simp only [Taken.hand, setReplace_of_ne hne]
      rfl
    · have hout : ∀ t' : Taken, t'.hand inode off len x = none := fun t' =>
        if_neg fun h => hrange ⟨h.1, h.2.1⟩
      rw [hout, hout]

/-- The hand does not depend on addresses that are not in it. -/
lemma hand_setBlkaddr (hi : t.doReplace i = false) :
    (t.setBlkaddr i a).hand inode off len = t.hand inode off len := by
  funext x
  by_cases hx : x.index - off = i
  · have hout : ∀ t' : Taken, t'.doReplace i = false → t'.hand inode off len x = none := by
      intro t' hrep
      refine if_neg ?_
      rintro ⟨-, -, -, hx'⟩
      rw [hx, hrep] at hx'
      exact absurd hx' (by simp)
    rw [hout t hi, hout (t.setBlkaddr i a) hi]
  · have hblk : (t.setBlkaddr i a).blkaddr (x.index - off) = t.blkaddr (x.index - off) :=
      Function.update_of_ne hx _ _
    simp only [Taken.hand, hblk]
    rfl

end Arrays

/-- The slots of a chunk. -/
structure Chunk (r : Rows Slot) (srcInode dstInode base src dst len : ℕ) : Prop where
  source : ∀ k, r.source (base + k) = ⟨srcInode, src + k⟩
  dest : ∀ k, r.dest (base + k) = ⟨dstInode, dst + k⟩
  fits : base + len ≤ r.len

/-- What is in hand is in no file. -/
structure HandOk (E : FsEnv V) (r : Rows Slot) (base len : ℕ) (st : Blocks V) (t : Taken) :
    Prop where
  null : ∀ k < len, t.doReplace k = true → st.addr (r.source (base + k)) = nullAddr
  unsaved : ∀ k < len, t.doReplace k = true → E.isCheckpointedData (t.blkaddr k) = false

/-- What is left in the arrays when the first `i` blocks have been seen to. -/
structure ToClone (E : FsEnv V) (r : Rows Slot) (v₀ : Blocks V) (base len i : ℕ) (st : Blocks V)
    (t : Taken) : Prop extends HandOk E r base len st t where
  taken : ∀ k, i ≤ k → k < len → t.blkaddr k = v₀.addr (r.source (base + k)) ∧
    t.doReplace k = !E.isCheckpointedData (v₀.addr (r.source (base + k)))
  done : ∀ k < i, t.doReplace k = false

section Loops

variable {E : FsEnv V} {r : Rows Slot} {full : Bool} {v₀ st st' : Blocks V} {t t' : Taken}
  {srcInode dstInode base src dst len i k : ℕ}

lemma not_checkpointed {a : BitVec 32} (h : E.isCheckpointedData a = false) : IsValidBlkaddr a := by
  by_contra hnot
  simp [FsEnv.isCheckpointedData, hnot] at h

/-- The slots that are still to be written are not in hand. -/
lemma Chunk.hand_dest (hc : Chunk r srcInode dstInode base src dst len)
    (hdone : ∀ k < i, t.doReplace k = false) :
    t.hand srcInode src len (r.dest (base + i)) = none := by
  refine hand_eq_none fun k hk hx => ?_
  rcases Nat.lt_or_ge k i with hlt | hge
  · exact hdone k hlt
  · rw [← hc.source k] at hx
    exact absurd hx (r.ahead _ _ (by omega) (by have := hc.fits; omega))

lemma Chunk.hand_source (hc : Chunk r srcInode dstInode base src dst len) (hk : k < len) :
    t.hand srcInode src len (r.source (base + k))
      = if t.doReplace k then some (t.blkaddr k) else none := by
  rw [hc.source, hand_slot hk]

/-- **One pass of the inner loop**: the block is moved, or its destination is emptied. -/
lemma cloneSlot_spec (hc : Chunk r srcInode dstInode base src dst len) (hi : i < len)
    (hp : Progress E r full v₀ (base + i) (st.putBack (t.hand srcInode src len)))
    (hh : ToClone E r v₀ base len i st t) (hreach : st.Reached E (r.dest (base + i)))
    (hhead : t.doReplace i = true ∨ t.blkaddr i = nullAddr ∧ MayCut E r v₀ full (base + i))
    (hr : cloneSlot srcInode (r.dest (base + i)) i st t = (st', t')) :
    Progress E r full v₀ (base + (i + 1)) (st'.putBack (t'.hand srcInode src len)) ∧
      ToClone E r v₀ base len (i + 1) st' t' ∧
      (v₀.addr (r.source (base + (i + 1))) = nullAddr → MayCut E r v₀ full (base + (i + 1))) ∧
      st'.nodes = st.nodes := by
  have hfits := hc.fits
  have hn : base + i < r.len := by omega
  have hdest := hc.hand_dest hh.done
  obtain ⟨hblk, hrep⟩ := hh.taken i le_rfl hi
  -- the slots ahead are not written
  have hahead : ∀ k, i ≤ k → k < len → r.source (base + k) ≠ r.dest (base + i) :=
    fun k hik hk => (r.ahead _ _ (by omega) (by omega)).symm
  have hnull : ∀ k < len, t.doReplace k = true →
      (st.truncateSlot (r.dest (base + i))).addr (r.source (base + k)) = nullAddr := by
    intro k hk hdo
    have hik : i ≤ k := by
      by_contra hlt
      exact absurd (hdo.symm.trans (hh.done k (by omega))) (by simp)
    rw [truncateSlot_addr, Function.update_of_ne (hahead k hik hk)]
    exact hh.null k hk hdo
  rw [cloneSlot] at hr
  cases hdo : t.doReplace i with
  | true =>
      rw [hdo] at hr hrep
      obtain ⟨rfl, rfl⟩ := Prod.mk.inj hr
      have hck : E.isCheckpointedData (v₀.addr (r.source (base + i))) = false := by
        simpa using hrep.symm
      have hhand : t.hand srcInode src len (r.source (base + i)) = some (t.blkaddr i) := by
        rw [hc.hand_source hi, hdo, if_pos rfl]
      have hino : (r.source (base + i)).ino = srcInode := by rw [hc.source]
      have hmove := putBack_replaceBlock hhand hdest (hnull i hi hdo)
      have hprog := hp.replace hn (not_checkpointed hck) (Reached.congr hreach (Finset.Subset.refl _))
      rw [putBack_truncateSlot hdest, ← hmove, hino] at hprog
      refine ⟨?_, ⟨⟨fun k hk hdo' => ?_, fun k hk hdo' => ?_⟩, fun k hik hk => ?_, fun k hk => ?_⟩,
        fun _ => ?_, ?_⟩
      · rw [hand_setReplace hi, ← hc.source i]
        exact hprog.same (hprog.wf.congr rfl rfl rfl rfl rfl) ⟨rfl, rfl, rfl, Finset.Subset.refl _⟩
      · have hki : k ≠ i := by
          rintro rfl
          rw [setReplace_self] at hdo'
          exact absurd hdo' (by simp)
        rw [setReplace_of_ne hki] at hdo'
        have hik : i ≤ k := by
          by_contra hlt
          exact absurd (hdo'.symm.trans (hh.done k (by omega))) (by simp)
        show Function.update _ _ _ _ = _
        rw [Function.update_of_ne (hahead k hik hk)]
        exact hnull k hk hdo'
      · have hki : k ≠ i := by
          rintro rfl
          rw [setReplace_self] at hdo'
          exact absurd hdo' (by simp)
        rw [setReplace_of_ne hki] at hdo'
        exact hh.unsaved k hk hdo'
      · rw [setReplace_of_ne (by omega : k ≠ i)]
        exact hh.taken k (by omega) hk
      · rcases Nat.lt_succ_iff_lt_or_eq.mp hk with hlt | rfl
        · rw [setReplace_of_ne hlt.ne]
          exact hh.done k hlt
        · exact setReplace_self _
      · exact Or.inr ⟨base + i, by omega, hck, fun k hjk hk => by omega⟩
      · exact truncateSlot_nodes
  | false =>
      rw [hdo] at hr
      obtain ⟨rfl, rfl⟩ := Prod.mk.inj hr
      obtain ⟨hhole, hcut⟩ : t.blkaddr i = nullAddr ∧ MayCut E r v₀ full (base + i) := by
        simpa [hdo] using hhead
      rw [hblk] at hhole
      have hprog := hp.cut hn hhole hcut
      rw [putBack_truncateSlot hdest] at hprog
      refine ⟨?_, ⟨⟨hnull, hh.unsaved⟩, fun k hik hk => hh.taken k (by omega) hk, fun k hk => ?_⟩,
        fun _ => ?_, truncateSlot_nodes⟩
      · exact hprog.same (hprog.wf.congr rfl rfl rfl rfl rfl) ⟨rfl, rfl, rfl, Finset.Subset.refl _⟩
      · rcases Nat.lt_succ_iff_lt_or_eq.mp hk with hlt | rfl
        · exact hh.done k hlt
        · exact hdo
      · rcases hcut with hfull | ⟨j, hj, hck, hbetween⟩
        · exact Or.inl hfull
        · refine Or.inr ⟨j, by omega, hck, fun k hjk hk => ?_⟩
          rcases Nat.lt_succ_iff_lt_or_eq.mp (show k < base + i + 1 by omega) with hlt | rfl
          · exact hbetween k hjk hlt
          · exact hhole

/-- What finding a dnode does while blocks are in hand. -/
lemma getDnode_hand {hand : Slot → Option (BitVec 32)} {x : Slot} {mode : NodeMode}
    {fail : Option ℕ} {d : GetDnode} (h : Wf E (st.putBack hand))
    (hr : f2fsGetDnodeOfData E st x mode fail = (d, st')) :
    Wf E (st'.putBack hand) ∧ SameFiles (st.putBack hand) (st'.putBack hand) ∧
      st'.addr = st.addr := by
  obtain ⟨hwf, hsame⟩ := getDnode_spec h x mode fail
  have haddr := getDnode_addr E st x mode fail
  rw [putBack_getDnode, hr] at hwf hsame
  rw [hr] at haddr
  exact ⟨hwf, hsame, haddr⟩

lemma getDnode_hand_found {hand : Slot → Option (BitVec 32)} {x : Slot} {mode : NodeMode}
    {fail : Option ℕ} {o e : ℕ} (h : Wf E (st.putBack hand))
    (hr : f2fsGetDnodeOfData E st x mode fail = (.found o e, st')) :
    o < e ∧ ∀ k < e - o, st'.Reached E ⟨x.ino, x.index + k⟩ := by
  have hr' : f2fsGetDnodeOfData E (st.putBack hand) x mode fail
      = (.found o e, st'.putBack hand) := by rw [putBack_getDnode, hr]
  have hfound := getDnode_found h hr'
  exact hfound

/-- **The inner loop moves what it gets to.** -/
lemma cloneDnode_spec {ilen : ℕ} (hc : Chunk r srcInode dstInode base src dst len)
    (hpos : 0 < ilen) (hlen : i + ilen ≤ len)
    (hp : Progress E r full v₀ (base + i) (st.putBack (t.hand srcInode src len)))
    (hh : ToClone E r v₀ base len i st t)
    (hreach : ∀ k < ilen, st.Reached E (r.dest (base + (i + k))))
    (hhead : t.doReplace i = true ∨ t.blkaddr i = nullAddr ∧ MayCut E r v₀ full (base + i)) :
    ∃ i' st' t', cloneDnode srcInode dstInode dst ilen i st t = (i', st', t') ∧ i < i' ∧ i' ≤ len ∧
      Progress E r full v₀ (base + i') (st'.putBack (t'.hand srcInode src len)) ∧
      ToClone E r v₀ base len i' st' t' := by
  induction ilen generalizing i st t with
  | zero => omega
  | succ ilen ih =>
      rw [cloneDnode, ← hc.dest i]
      cases hslot : cloneSlot srcInode (r.dest (base + i)) i st t with
      | mk st₁ t₁ =>
          obtain ⟨hp₁, hh₁, hcut, hnodes⟩ :=
            cloneSlot_spec hc (by omega) hp hh (hreach 0 (by omega)) hhead hslot
          simp only []
          split_ifs with hmore
          · obtain ⟨hilen, hnext⟩ := hmore
            have hreach₁ : ∀ k < ilen, st₁.Reached E (r.dest (base + (i + 1 + k))) := by
              intro k hk
              rw [show i + 1 + k = i + (k + 1) by omega]
              exact Reached.congr (hreach (k + 1) (by omega)) hnodes.ge
            have hhead₁ : t₁.doReplace (i + 1) = true ∨
                t₁.blkaddr (i + 1) = nullAddr ∧ MayCut E r v₀ full (base + (i + 1)) := by
              rcases hnext with hdo | hhole
              · exact Or.inl hdo
              · refine Or.inr ⟨hhole, hcut ?_⟩
                rw [← (hh₁.taken (i + 1) le_rfl (by omega)).1]
                exact hhole
            obtain ⟨i', st', t', hrun, hlt, hrest⟩ :=
              ih (Nat.pos_of_ne_zero hilen) (by omega) hp₁ hh₁ hreach₁ hhead₁
            exact ⟨i', st', t', hrun, by omega, hrest⟩
          · exact ⟨_, _, _, rfl, by omega, by omega, hp₁, hh₁⟩

/-- How cloning a chunk ends. -/
def CloneEnd (E : FsEnv V) (r : Rows Slot) (full : Bool) (v₀ : Blocks V)
    (srcInode base src len : ℕ) (b : Bool) (st : Blocks V) (t : Taken) : Prop :=
  if b then
    Progress E r full v₀ (base + len) (st.putBack (t.hand srcInode src len)) ∧
      ToClone E r v₀ base len len st t
  else
    ∃ i < len, Halted E r v₀ (base + i) (st.putBack (t.hand srcInode src len)) ∧
      ToClone E r v₀ base len i st t

/-- **Cloning a chunk ends**, and moves its blocks, or those before the one where it fails. -/
lemma cloneBlkaddrs_spec {fuel : ℕ} (hc : Chunk r srcInode dstInode base src dst len)
    (hi : i ≤ len) (hfuel : len ≤ i + fuel)
    (hp : Progress E r full v₀ (base + i) (st.putBack (t.hand srcInode src len)))
    (hh : ToClone E r v₀ base len i st t) :
    ∃ b st' t', cloneBlkaddrs E srcInode dstInode src dst len full fuel i st t = some (b, st', t') ∧
      CloneEnd E r full v₀ srcInode base src len b st' t' := by
  have hfits := hc.fits
  induction fuel generalizing i st t with
  | zero =>
      obtain rfl : i = len := by omega
      rw [cloneBlkaddrs, if_pos le_rfl]
      exact ⟨_, _, _, rfl, hp, hh⟩
  | succ fuel ih =>
      rw [cloneBlkaddrs]
      by_cases hend : len ≤ i
      · obtain rfl : i = len := by omega
        rw [if_pos hend]
        exact ⟨_, _, _, rfl, hp, hh⟩
      · have hlt : i < len := by omega
        have hn : base + i < r.len := by omega
        obtain ⟨hblk, hrep⟩ := hh.taken i le_rfl hlt
        rw [if_neg hend]
        simp only []
        by_cases hskip : t.blkaddr i = nullAddr ∧ full = false
        · -- a hole that is stepped over
          rw [if_pos hskip]
          obtain ⟨hhole, hfull⟩ := hskip
          have hnot : t.doReplace i = false := by
            rw [hrep, ← hblk, hhole]
            simp [FsEnv.isCheckpointedData, IsValidBlkaddr]
          refine ih (by omega) (by omega) (hp.keep hn (hblk ▸ hhole) hfull)
            ⟨hh.toHandOk, fun k hk => hh.taken k (by omega), fun k hk => ?_⟩
          rcases Nat.lt_succ_iff_lt_or_eq.mp hk with hki | rfl
          · exact hh.done k hki
          · exact hnot
        · rw [if_neg hskip]
          by_cases hcase : t.doReplace i = true ∨ t.blkaddr i = nullAddr
          · -- a block in hand, or a hole with `full`
            rw [if_pos hcase]
            have htick : Progress E r full v₀ (base + i)
                (st.tick.putBack (t.hand srcInode src len)) :=
              hp.same hp.wf.tick (sameFiles_tick _)
            cases hdn : f2fsGetDnodeOfData E st.tick ⟨dstInode, dst + i⟩ .alloc
                (E.fault st.calls) with
            | mk d st₁ =>
                obtain ⟨hwf, hsame, haddr⟩ := getDnode_hand htick.wf hdn
                have hp₁ := htick.same hwf hsame
                have hh₁ : ToClone E r v₀ base len i st₁ t := by
                  refine ⟨⟨fun k hk hdo => ?_, hh.unsaved⟩, hh.taken, hh.done⟩
                  rw [haddr]
                  exact hh.null k hk hdo
                cases d with
                | error => exact ⟨_, _, _, rfl, i, hlt, hp₁.halted hn.le, hh₁⟩
                | enoent m o => exact ⟨_, _, _, rfl, i, hlt, hp₁.halted hn.le, hh₁⟩
                | found o e =>
                    obtain ⟨hoe, hreach⟩ := getDnode_hand_found htick.wf hdn
                    have hreach₁ : ∀ k < min (e - o) (len - i),
                        st₁.Reached E (r.dest (base + (i + k))) := by
                      intro k hk
                      rw [hc.dest, ← Nat.add_assoc]
                      exact hreach k (by omega)
                    have hhead : t.doReplace i = true ∨
                        t.blkaddr i = nullAddr ∧ MayCut E r v₀ full (base + i) := by
                      refine hcase.imp_right fun hhole => ⟨hhole, Or.inl ?_⟩
                      by_contra hnot
                      exact hskip ⟨hhole, by simpa using hnot⟩
                    obtain ⟨i', st₂, t₂, hrun, hi', hle, hp₂, hh₂⟩ := cloneDnode_spec hc
                      (by omega) (by omega) hp₁ hh₁ hreach₁ hhead
                    simp only [hrun]
                    exact ih hle (by omega) hp₂ hh₂
          · -- a block that is copied
            rw [if_neg hcase]
            rw [not_or] at hcase
            have hnot : t.doReplace i = false := by simpa using hcase.1
            have hsource : t.hand srcInode src len (r.source (base + i)) = none := by
              rw [hc.hand_source hlt, hnot]
              rfl
            have hdest := hc.hand_dest hh.done
            rw [← hc.source i, ← hc.dest i]
            have hcopy := putBack_copyBlock E st hsource hdest
            cases hrun : copyBlock E (r.source (base + i)) (r.dest (base + i)) st with
            | mk b st₁ =>
                rw [hrun] at hcopy
                have hspec := copyBlock_spec hp hn hcopy
                have hh₁ : HandOk E r base len st₁ t := by
                  refine ⟨fun k hk hdo => ?_, hh.unsaved⟩
                  have hik : i < k := by
                    rcases Nat.lt_trichotomy k i with hki | rfl | hik
                    · exact absurd (hdo.symm.trans (hh.done k hki)) (by simp)
                    · exact absurd (hdo.symm.trans hnot) (by simp)
                    · exact hik
                  have haddr := copyBlock_addr hrun (source_ne (by omega))
                    (r.ahead (base + i) (base + k) (by omega) (by omega)).symm
                  rw [haddr]
                  exact hh.null k hk hdo
                cases b with
                | false =>
                    exact ⟨_, _, _, rfl, i, hlt, hspec, hh₁, hh.taken, hh.done⟩
                | true =>
                    refine ih (by omega) (by omega) hspec
                      ⟨hh₁, fun k hk => hh.taken k (by omega), fun k hk => ?_⟩
                    rcases Nat.lt_succ_iff_lt_or_eq.mp hk with hki | rfl
                    · exact hh.done k hki
                    · exact hnot

/-! ## Reading out -/

/-- **Nothing has happened but that addresses have been taken out.** -/
structure Aside (E : FsEnv V) (r : Rows Slot) (srcInode src : ℕ) (u : Blocks V) (base len : ℕ)
    (st : Blocks V) (t : Taken) : Prop extends HandOk E r base len st t where
  wf : Wf E (st.putBack (t.hand srcInode src len))
  same : SameFiles u (st.putBack (t.hand srcInode src len))

/-- The first `i` blocks of a chunk have been read out. -/
structure ReadOut (E : FsEnv V) (r : Rows Slot) (srcInode src : ℕ) (u : Blocks V) (base len i : ℕ)
    (st : Blocks V) (t : Taken) : Prop extends Aside E r srcInode src u base len st t where
  read : ∀ k < i, t.blkaddr k = u.addr (r.source (base + k)) ∧
    t.doReplace k = !E.isCheckpointedData (u.addr (r.source (base + k)))
  fresh : ∀ k, i ≤ k → t.blkaddr k = nullAddr ∧ t.doReplace k = false

variable {u : Blocks V}

lemma setBlkaddr_of_ne (h : k ≠ i) (a : BitVec 32) : (t.setBlkaddr i a).blkaddr k = t.blkaddr k :=
  Function.update_of_ne h _ _

/-- A block that has not been read out is where it was. -/
lemma ReadOut.addr_eq (hc : Chunk r srcInode dstInode base src dst len) (hi : i < len)
    (h : ReadOut E r srcInode src u base len i st t) :
    t.hand srcInode src len (r.source (base + i)) = none ∧
      st.addr (r.source (base + i)) = u.addr (r.source (base + i)) := by
  have hhand : t.hand srcInode src len (r.source (base + i)) = none := by
    rw [hc.hand_source hi, (h.fresh i le_rfl).2]
    rfl
  exact ⟨hhand, (putBack_addr hhand).symm.trans (congrFun h.same.addr _)⟩

/-- The address of a block is noted. -/
lemma Aside.note {a : BitVec 32} (h : Aside E r srcInode src u base len st t)
    (hi : t.doReplace i = false) : Aside E r srcInode src u base len st (t.setBlkaddr i a) := by
  refine ⟨⟨h.null, fun k hk hdo => ?_⟩, ?_, ?_⟩
  · have hki : k ≠ i := by
      rintro rfl
      exact absurd (hi.symm.trans hdo) (by simp)
    rw [setBlkaddr_of_ne hki]
    exact h.unsaved k hk hdo
  · rw [hand_setBlkaddr hi]
    exact h.wf
  · rw [hand_setBlkaddr hi]
    exact h.same

/-- **A block that stays.** -/
lemma ReadOut.stay (hc : Chunk r srcInode dstInode base src dst len) (hi : i < len)
    (h : ReadOut E r srcInode src u base len i st t)
    (hck : E.isCheckpointedData (st.addr (r.source (base + i))) = true) :
    ReadOut E r srcInode src u base len (i + 1) st
      (t.setBlkaddr i (st.addr (r.source (base + i)))) := by
  have hfresh := (h.fresh i le_rfl).2
  obtain ⟨-, haddr⟩ := h.addr_eq hc hi
  refine ⟨h.toAside.note hfresh, fun k hk => ?_, fun k hk => ?_⟩
  · rcases Nat.lt_succ_iff_lt_or_eq.mp hk with hlt | rfl
    · rw [setBlkaddr_of_ne hlt.ne]
      exact h.read k hlt
    · refine ⟨(Function.update_self _ _ _).trans haddr, ?_⟩
      rw [← haddr, hck]
      exact hfresh
  · rw [setBlkaddr_of_ne (by omega)]
    exact h.fresh k (by omega)

/-- **A block that is taken out.** -/
lemma ReadOut.take (hc : Chunk r srcInode dstInode base src dst len) (hi : i < len)
    (h : ReadOut E r srcInode src u base len i st t)
    (hck : E.isCheckpointedData (st.addr (r.source (base + i))) = false) :
    ReadOut E r srcInode src u base len (i + 1) (st.setAddr (r.source (base + i)) nullAddr)
      ((t.setBlkaddr i (st.addr (r.source (base + i)))).setReplace i true) := by
  have hfresh := (h.fresh i le_rfl).2
  obtain ⟨hhand, haddr⟩ := h.addr_eq hc hi
  set a := st.addr (r.source (base + i)) with ha
  have hself : (t.setBlkaddr i a).blkaddr i = a := Function.update_self _ _ _
  have hback : (st.setAddr (r.source (base + i)) nullAddr).putBack
      (((t.setBlkaddr i a).setReplace i true).hand srcInode src len)
        = st.putBack (t.hand srcInode src len) := by
    rw [hand_setReplace hi, if_pos rfl, hself, hand_setBlkaddr hfresh, ← hc.source i]
    exact putBack_takeOut hhand ha.symm nullAddr
  refine ⟨⟨⟨fun k hk hdo => ?_, fun k hk hdo => ?_⟩, ?_, ?_⟩, fun k hk => ?_, fun k hk => ?_⟩
  · by_cases hki : k = i
    · subst hki
      exact Function.update_self _ _ _
    · rw [setReplace_of_ne hki] at hdo
      show Function.update st.addr _ _ _ = nullAddr
      rw [Function.update_of_ne fun heq => hki (by have := r.source_inj heq; omega)]
      exact h.null k hk hdo
  · by_cases hki : k = i
    · subst hki
      show E.isCheckpointedData ((t.setBlkaddr k a).blkaddr k) = false
      rw [hself, hck]
    · rw [setReplace_of_ne hki] at hdo
      show E.isCheckpointedData ((t.setBlkaddr i a).blkaddr k) = false
      rw [setBlkaddr_of_ne hki]
      exact h.unsaved k hk hdo
  · rw [hback]
    exact h.wf
  · rw [hback]
    exact h.same
  · rcases Nat.lt_succ_iff_lt_or_eq.mp hk with hlt | rfl
    · rw [setReplace_of_ne hlt.ne]
      show (t.setBlkaddr i a).blkaddr k = _ ∧ _
      rw [setBlkaddr_of_ne hlt.ne]
      exact h.read k hlt
    · refine ⟨hself.trans haddr, ?_⟩
      rw [setReplace_self, ← haddr, hck]
      rfl
  · rw [setReplace_of_ne (by omega)]
    show (t.setBlkaddr i a).blkaddr k = _ ∧ _
    rw [setBlkaddr_of_ne (by omega)]
    exact h.fresh k (by omega)

/-- **The blocks of one dnode.** -/
lemma readDnode_spec {done : ℕ} {b : Bool} (hc : Chunk r srcInode dstInode base src dst len)
    (hlen : i + done ≤ len) (h : ReadOut E r srcInode src u base len i st t)
    (hr : readDnode E srcInode src done i st t = (b, st', t')) :
    if b then ReadOut E r srcInode src u base len (i + done) st' t'
    else Aside E r srcInode src u base len st' t' := by
  induction done generalizing i st t with
  | zero =>
      rw [readDnode] at hr
      obtain ⟨rfl, hrest⟩ := Prod.mk.inj hr
      obtain ⟨rfl, rfl⟩ := Prod.mk.inj hrest
      exact h
  | succ done ih =>
      rw [readDnode, ← hc.source i] at hr
      rw [show i + (done + 1) = i + 1 + done by omega]
      split_ifs at hr with hck hlfs
      · exact ih (by omega) (h.stay hc (by omega) hck) hr
      · obtain ⟨rfl, hrest⟩ := Prod.mk.inj hr
        obtain ⟨rfl, rfl⟩ := Prod.mk.inj hrest
        exact h.toAside.note (h.fresh i le_rfl).2
      · exact ih (by omega) (h.take hc (by omega) (by simpa using hck)) hr

/-- The blocks of a dnode that is missing. -/
lemma ReadOut.skip {done : ℕ} (h : ReadOut E r srcInode src u base len i st t)
    (hmiss : ∀ k < done, ¬ st.Reached E (r.source (base + (i + k)))) :
    ReadOut E r srcInode src u base len (i + done) st t := by
  refine ⟨h.toAside, fun k hk => ?_, fun k hk => h.fresh k (by omega)⟩
  rcases Nat.lt_or_ge k i with hlt | hge
  · exact h.read k hlt
  · have hhole : u.addr (r.source (base + k)) = nullAddr := by
      by_contra hne
      obtain ⟨d, rfl⟩ := Nat.exists_eq_add_of_le hge
      refine hmiss d (by omega) ?_
      have hreach := h.wf.reached (r.source (base + (i + d))) (by rw [h.same.addr]; exact hne)
      exact hreach
    obtain ⟨hblk, hrep⟩ := h.fresh k hge
    rw [hblk, hrep, hhole]
    exact ⟨rfl, by simp [FsEnv.isCheckpointedData, IsValidBlkaddr]⟩

lemma Aside.congr (h : Aside E r srcInode src u base len st t)
    (hwf : Wf E (st'.putBack (t.hand srcInode src len)))
    (hsame : SameFiles (st.putBack (t.hand srcInode src len))
      (st'.putBack (t.hand srcInode src len))) (haddr : st'.addr = st.addr) :
    Aside E r srcInode src u base len st' t := by
  refine ⟨⟨?_, h.unsaved⟩, hwf, h.same.trans hsame⟩
  rw [haddr]
  exact h.null

/-- **Reading out a chunk ends**, and takes out the addresses that no checkpoint has. -/
lemma readOutBlkaddrs_spec {fuel : ℕ} (hc : Chunk r srcInode dstInode base src dst len)
    (hi : i < len) (hfuel : len ≤ i + fuel) (h : ReadOut E r srcInode src u base len i st t) :
    ∃ b st' t', readOutBlkaddrs E srcInode src len fuel i st t = some (b, st', t') ∧
      if b then ReadOut E r srcInode src u base len len st' t'
      else Aside E r srcInode src u base len st' t' := by
  induction fuel generalizing i st t with
  | zero => omega
  | succ fuel ih =>
      rw [readOutBlkaddrs]
      have htick : Wf E (st.tick.putBack (t.hand srcInode src len)) := h.wf.tick
      cases hdn : f2fsGetDnodeOfData E st.tick ⟨srcInode, src + i⟩ .lookup (E.fault st.calls) with
      | mk d st₁ =>
          obtain ⟨hwf, hsame, haddr⟩ := getDnode_hand htick hdn
          have haside : Aside E r srcInode src u base len st₁ t :=
            h.toAside.congr hwf ((sameFiles_tick _).trans hsame) haddr
          have hread : ReadOut E r srcInode src u base len i st₁ t := ⟨haside, h.read, h.fresh⟩
          -- the next dnode, or the end
          have hnext : ∀ (done : ℕ) (st₂ : Blocks V) (t₂ : Taken), 0 < done → i + done ≤ len →
              ReadOut E r srcInode src u base len (i + done) st₂ t₂ →
              ∃ b st' t', (if i + done < len then
                  readOutBlkaddrs E srcInode src len fuel (i + done) st₂ t₂
                else some (true, st₂, t₂)) = some (b, st', t') ∧
                if b then ReadOut E r srcInode src u base len len st' t'
                else Aside E r srcInode src u base len st' t' := by
            intro done st₂ t₂ hpos hle hread₂
            split_ifs with hmore
            · exact ih hmore (by omega) hread₂
            · obtain heq : i + done = len := by omega
              exact ⟨_, _, _, rfl, heq ▸ hread₂⟩
          cases d with
          | error => exact ⟨_, _, _, rfl, haside⟩
          | enoent m o =>
              simp only []
              by_cases hm : m = 0
              · rw [if_pos hm]
                exact ⟨_, _, _, rfl, haside⟩
              · rw [if_neg hm]
                obtain ⟨rfl, hmiss⟩ := getDnode_enoent hdn
                obtain ⟨ho, hmiss⟩ := hmiss hm
                refine hnext (min (addrsPerBlock - o) (len - i)) _ _ (by omega) (by omega)
                  (hread.skip fun k hk => ?_)
                rw [hc.source, ← Nat.add_assoc]
                exact hmiss k (by omega)
          | found o e =>
              obtain ⟨hoe, -⟩ := getDnode_hand_found htick hdn
              simp only []
              cases hrun : readDnode E srcInode src (min (e - o) (len - i)) i st₁ t with
              | mk b rest =>
                  obtain ⟨st₂, t₂⟩ := rest
                  have hspec := readDnode_spec hc (by omega) hread hrun
                  cases b with
                  | false => exact ⟨_, _, _, rfl, hspec⟩
                  | true => exact hnext _ _ _ (by omega) (by omega) hspec

end Loops

/-! ## Rolling back -/

/-- A block of the source range is where it was. -/
def Kept (E : FsEnv V) (r : Rows Slot) (v₀ v : Blocks V) (k : ℕ) : Prop :=
  v.addr (r.source k) = v₀.addr (r.source k) ∧ v.held E (r.source k) = v₀.held E (r.source k)

/-- **A block in hand has been released**, as its node could not be read. -/
def Released (E : FsEnv V) (r : Rows Slot) (v₀ v : Blocks V) (k : ℕ) : Prop :=
  E.lostNode (r.source k) = true ∧ E.isCheckpointedData (v₀.addr (r.source k)) = false ∧
    ∀ x, v.addr x ≠ v₀.addr (r.source k)

/-- **Something has failed at block `n`**, and what was in hand has been put back. -/
structure Settled (E : FsEnv V) (r : Rows Slot) (v₀ : Blocks V) (n : ℕ) (v : Blocks V) : Prop where
  wf : Wf E v
  moved : ∀ k < n, v₀.held E (r.source k) ≠ none → v.held E (r.dest k) = v₀.held E (r.source k)
  gone : ∀ k < n, IsValidBlkaddr (v₀.addr (r.source k)) →
    ∀ x, v.addr x = v₀.addr (r.source k) → x = r.dest k
  ahead : ∀ k, n ≤ k → k < r.len → Kept E r v₀ v k ∨ Released E r v₀ v k

section Rollback

variable {E : FsEnv V} {r : Rows Slot} {v₀ v st : Blocks V} {t : Taken}
  {srcInode dstInode base src dst len n m i k : ℕ}

lemma Halted.settled (h : Halted E r v₀ n v) : Settled E r v₀ n v :=
  ⟨h.wf, h.moved, h.gone, fun k hnk hk => Or.inl (h.ahead k hnk hk)⟩

/-- A block that cannot be put back. -/
lemma Settled.release (h : Settled E r v₀ n v) (hnm : n ≤ m) (hm : m < r.len)
    (hlost : E.lostNode (r.source m) = true)
    (hck : E.isCheckpointedData (v.addr (r.source m)) = false) :
    Settled E r v₀ n (v.truncateSlot (r.source m)) := by
  have hvalid := not_checkpointed hck
  refine ⟨h.wf.truncateSlot _, fun k hk hfull => ?_, fun k hk hv x hx => ?_, fun k hnk hk => ?_⟩
  · rw [held_truncateSlot, Function.update_of_ne (r.ahead k m (by omega) hm)]
    exact h.moved k hk hfull
  · rw [truncateSlot_addr] at hx
    rw [(cleared_ne (hx ▸ hv.1)).2] at hx
    exact h.gone k hk hv x hx
  · by_cases hkm : k = m
    · subst hkm
      rcases h.ahead k hnk hk with ⟨haddr, -⟩ | ⟨hl, hc, hnone⟩
      · refine Or.inr ⟨hlost, haddr ▸ hck, fun x hx => ?_⟩
        rw [← haddr, truncateSlot_addr] at hx
        obtain ⟨hxk, hx'⟩ := cleared_ne (hx ▸ hvalid.1)
        rw [hx'] at hx
        exact hxk (h.wf.owner x _ (hx ▸ hvalid) hx)
      · refine Or.inr ⟨hl, hc, fun x hx => ?_⟩
        rw [truncateSlot_addr] at hx
        rw [(cleared_ne (hx ▸ (not_checkpointed hc).1)).2] at hx
        exact hnone x hx
    · have hne : r.source k ≠ r.source m := fun heq => hkm (r.source_inj heq)
      rcases h.ahead k hnk hk with ⟨haddr, hheld⟩ | ⟨hl, hc, hnone⟩
      · refine Or.inl ⟨?_, ?_⟩
        · rw [truncateSlot_addr, Function.update_of_ne hne, haddr]
        · rw [held_truncateSlot, Function.update_of_ne hne, hheld]
      · refine Or.inr ⟨hl, hc, fun x hx => ?_⟩
        rw [truncateSlot_addr] at hx
        rw [(cleared_ne (hx ▸ (not_checkpointed hc).1)).2] at hx
        exact hnone x hx

/-- The arrays without the first `i` blocks. -/
def Taken.onward (t : Taken) (i : ℕ) : Taken :=
  { t with doReplace := fun k => decide (i ≤ k) && t.doReplace k }

lemma onward_doReplace : (t.onward i).doReplace k = true ↔ i ≤ k ∧ t.doReplace k = true := by
  simp [Taken.onward]

lemma onward_succ : t.onward (i + 1) = (t.onward i).setReplace i false := by
  have hrep : (fun k => decide (i + 1 ≤ k) && t.doReplace k)
      = Function.update (fun k => decide (i ≤ k) && t.doReplace k) i false := by
    funext k
    by_cases hk : k = i
    · subst hk
      simp
    · have hiff : (i + 1 ≤ k) = (i ≤ k) := propext (by omega)
      simp only [Function.update_of_ne hk, hiff]
  rw [Taken.onward, hrep]
  rfl

/-- **Rolling back settles the files.** -/
lemma rollBackBlkaddrs_spec (hc : Chunk r srcInode dstInode base src dst len) (hi : i + m = len)
    (h : Settled E r v₀ n (st.putBack ((t.onward i).hand srcInode src len)))
    (hh : HandOk E r base len st (t.onward i))
    (hck : ∀ k < len, t.doReplace k = true → n ≤ base + k) :
    Settled E r v₀ n (rollBackBlkaddrs E srcInode src t m i st) := by
  induction m generalizing i st with
  | zero =>
      have hempty : ∀ x, (t.onward i).hand srcInode src len x = none := by
        refine fun x => hand_eq_none fun k hk _ => ?_
        rw [← Bool.not_eq_true, onward_doReplace]
        omega
      rw [putBack_none hempty] at h
      exact h
  | succ m ih =>
      have hilt : i < len := by omega
      rw [rollBackBlkaddrs, ← hc.source i]
      cases hdo : t.doReplace i with
      | false =>
          rw [if_pos rfl]
          have hsame : t.onward (i + 1) = t.onward i := by
            rw [onward_succ, setReplace_eq_self]
            simp [Taken.onward, hdo]
          exact ih (by omega) (hsame ▸ h) (hsame ▸ hh)
      | true =>
          rw [if_neg (by simp)]
          have hrep : (t.onward i).doReplace i = true := onward_doReplace.mpr ⟨le_rfl, hdo⟩
          have hni := hck i hilt hdo
          have hnck : E.isCheckpointedData (t.blkaddr i) = false := hh.unsaved i hilt hrep
          have hvalid := not_checkpointed hnck
          have hhand : (t.onward i).hand srcInode src len (r.source (base + i))
              = some (t.blkaddr i) := by
            rw [hc.hand_source hilt, hrep, if_pos rfl]
            rfl
          have hnull := hh.null i hilt hrep
          have hnext : (t.onward (i + 1)).hand srcInode src len
              = Function.update ((t.onward i).hand srcInode src len) (r.source (base + i)) none := by
            rw [onward_succ, hand_setReplace hilt, hc.source]
            rfl
          have hh' : ∀ st' : Blocks V, (∀ x, x ≠ r.source (base + i) → st'.addr x = st.addr x) →
              HandOk E r base len st' (t.onward (i + 1)) := by
            intro st' haddr
            refine ⟨fun k hk hrep' => ?_, fun k hk hrep' => ?_⟩
            · obtain ⟨hik, hdo'⟩ := onward_doReplace.mp hrep'
              rw [haddr _ (fun heq => by have := r.source_inj heq; omega)]
              exact hh.null k hk (onward_doReplace.mpr ⟨by omega, hdo'⟩)
            · obtain ⟨hik, hdo'⟩ := onward_doReplace.mp hrep'
              exact hh.unsaved k hk (onward_doReplace.mpr ⟨by omega, hdo'⟩)
          have hsource : (st.putBack ((t.onward i).hand srcInode src len)).addr
              (r.source (base + i)) = t.blkaddr i := by
            simp only [Blocks.putBack, hhand, Option.getD_some]
          -- the block is released when its node cannot be read
          have hrelease : E.lostNode (r.source (base + i)) = true →
              Settled E r v₀ n (rollBackBlkaddrs E srcInode src t m (i + 1)
                ((st.addValidBlockCount srcInode (-1)).invalidateBlocks (t.blkaddr i))) := by
            intro hlost
            refine ih (by omega) ?_ (hh' _ fun x _ => by rw [invalidateBlocks_addr]; rfl)
            have hino : (r.source (base + i)).ino = srcInode := by rw [hc.source]
            have hback := putBack_release hhand hvalid.1 hnull
            rw [hino] at hback
            rw [hnext, hback]
            exact h.release hni (by have := hc.fits; omega) hlost (hsource ▸ hnck)
          cases hlost : E.lostNode (r.source (base + i)) with
          | true =>
              rw [if_pos rfl]
              have hlook := getDnode_lookup E st (r.source (base + i)) (some 0)
              cases hdn : f2fsGetDnodeOfData E st (r.source (base + i)) .lookup (some 0) with
              | mk d st₁ =>
                  rw [hdn] at hlook
                  obtain rfl : st₁ = st := hlook
                  cases d with
                  | error => exact hrelease hlost
                  | enoent _ _ => exact hrelease hlost
                  | found o e => exact absurd hdn getDnode_fail
          | false =>
              rw [if_neg (by simp)]
              have hreach : st.Reached E (r.source (base + i)) := by
                have hreach := h.wf.reached (r.source (base + i)) (by rw [hsource]; exact hvalid.1)
                exact hreach
              obtain ⟨o, e, hfound⟩ := getDnode_reached hreach
              rw [hfound]
              refine ih (by omega) ?_ (hh' _ fun x hx => Function.update_of_ne hx _ _)
              rw [hnext, putBack_restore hhand]
              exact h

/-- **A chunk that fails is rolled back.** -/
lemma Halted.rollBack (h : Halted E r v₀ (base + i) (st.putBack (t.hand srcInode src len)))
    (hc : Chunk r srcInode dstInode base src dst len) (hh : HandOk E r base len st t)
    (hdone : ∀ k < i, t.doReplace k = false) :
    Settled E r v₀ (base + i) (rollBackBlkaddrs E srcInode src t len 0 st) := by
  have hall : t.onward 0 = t := by simp [Taken.onward]
  refine rollBackBlkaddrs_spec hc (Nat.zero_add len) ?_ ?_ fun k _ hdo => ?_
  · rw [hall]
    exact h.settled
  · rw [hall]
    exact hh
  · by_contra hlt
    exact absurd (hdo.symm.trans (hdone k (by omega))) (by simp)

end Rollback

/-! ## The exchange -/

/-- No slot of the destination is written before it has been read. -/
def Apart (srcInode dstInode src dst len : ℕ) : Prop :=
  srcInode ≠ dstInode ∨ dst < src ∨ src + len ≤ dst

/-- The two ranges. -/
def ranges {srcInode dstInode src dst len : ℕ} (h : Apart srcInode dstInode src dst len) :
    Rows Slot where
  source k := ⟨srcInode, src + k⟩
  dest k := ⟨dstInode, dst + k⟩
  len := len
  source_inj j k hjk := Nat.add_left_cancel (Slot.mk.inj hjk).2
  dest_inj j k hjk := Nat.add_left_cancel (Slot.mk.inj hjk).2
  ahead j k hjk hk heq := by
    obtain ⟨hino, hindex⟩ := Slot.mk.inj heq
    rcases h with hne | hlt | hle
    · exact hne hino.symm
    · omega
    · omega

section Exchange

variable {E : FsEnv V} {full : Bool} {v₀ st : Blocks V} {srcInode dstInode src dst len n fuel : ℕ}

lemma hand_zero (x : Slot) : Taken.zero.hand srcInode src len x = none :=
  hand_eq_none fun _ _ _ => rfl

lemma readOut_start {r : Rows Slot} {base : ℕ} (h : Wf E st) :
    ReadOut E r srcInode src st base len 0 st Taken.zero := by
  have hback : st.putBack (Taken.zero.hand srcInode src len) = st := putBack_none hand_zero
  refine ⟨⟨⟨fun k _ hdo => absurd hdo (by simp [Taken.zero]),
    fun k _ hdo => absurd hdo (by simp [Taken.zero])⟩, ?_, ?_⟩,
    fun k hk => absurd hk (Nat.not_lt_zero k), fun k _ => ⟨rfl, rfl⟩⟩
  · rw [hback]
    exact h
  · rw [hback]
    exact SameFiles.refl _

/-- What has been read out can be cloned. -/
lemma ReadOut.toClone {r : Rows Slot} {base : ℕ} {u : Blocks V} {t : Taken}
    (h : ReadOut E r srcInode src u base len len st t) (hp : Progress E r full v₀ base u)
    (hfits : base + len ≤ r.len) : ToClone E r v₀ base len 0 st t := by
  refine ⟨h.toHandOk, fun k _ hk => ?_, fun k hk => absurd hk (Nat.not_lt_zero k)⟩
  rw [← hp.ahead (base + k) (by omega) (by omega)]
  exact h.read k hk

/-- How a chunk ends. -/
def ChunkEnd (E : FsEnv V) (r : Rows Slot) (full : Bool) (v₀ : Blocks V) (base len : ℕ) (b : Bool)
    (st : Blocks V) : Prop :=
  if b then Progress E r full v₀ (base + len) st
  else ∃ m ≤ r.len, Settled E r v₀ m st

/-- **One chunk.** -/
lemma chunk_spec {r : Rows Slot} {base : ℕ} (hc : Chunk r srcInode dstInode base src dst len)
    (hpos : 0 < len) (hp : Progress E r full v₀ base st) :
    ∃ b st₁ t₁, readOutBlkaddrs E srcInode src len len 0 st Taken.zero = some (b, st₁, t₁) ∧
      if b then
        ∃ b' st₂ t₂, cloneBlkaddrs E srcInode dstInode src dst len full len 0 st₁ t₁
            = some (b', st₂, t₂) ∧
          ChunkEnd E r full v₀ base len b'
            (if b' then st₂ else rollBackBlkaddrs E srcInode src t₂ len 0 st₂)
      else ChunkEnd E r full v₀ base len false (rollBackBlkaddrs E srcInode src t₁ len 0 st₁) := by
  have hfits := hc.fits
  obtain ⟨b, st₁, t₁, hread, hspec⟩ :=
    readOutBlkaddrs_spec hc hpos (show len ≤ 0 + len by omega) (readOut_start hp.wf)
  refine ⟨b, st₁, t₁, hread, ?_⟩
  cases b with
  | false =>
      have haside : Aside E r srcInode src st base len st₁ t₁ := hspec
      have hhalted := (hp.same haside.wf haside.same).halted (by omega)
      exact ⟨base, by omega, hhalted.rollBack (i := 0) hc haside.toHandOk fun k hk =>
        absurd hk (Nat.not_lt_zero k)⟩
  | true =>
      have hall : ReadOut E r srcInode src st base len len st₁ t₁ := hspec
      obtain ⟨b', st₂, t₂, hclone, hend⟩ := cloneBlkaddrs_spec hc (Nat.zero_le len)
        (show len ≤ 0 + len by omega) (hp.same hall.wf hall.same) (hall.toClone hp hfits)
      refine ⟨b', st₂, t₂, hclone, ?_⟩
      cases b' with
      | false =>
          obtain ⟨i, hi, hhalted, hh⟩ := hend
          exact ⟨base + i, by omega, hhalted.rollBack hc hh.toHandOk hh.done⟩
      | true =>
          obtain ⟨hprog, hh⟩ := hend
          have hempty : ∀ x, t₂.hand srcInode src len x = none :=
            fun x => hand_eq_none fun k hk _ => hh.done k hk
          rw [putBack_none hempty] at hprog
          exact hprog

/-- **The chunks, one after the other.** -/
lemma exchange_spec (h : Apart srcInode dstInode src dst len) (hn : n ≤ len)
    (hfuel : len ≤ n + fuel) (hp : Progress E (ranges h) full v₀ n st) :
    ∃ b st', exchangeDataBlock E srcInode dstInode full fuel (src + n) (dst + n) (len - n) st
        = some (b, st') ∧
      if b then Progress E (ranges h) full v₀ len st'
      else ∃ m ≤ len, Settled E (ranges h) v₀ m st' := by
  induction fuel generalizing n st with
  | zero =>
      obtain rfl : n = len := by omega
      rw [exchangeDataBlock, if_pos (Nat.sub_self n)]
      exact ⟨_, _, rfl, hp⟩
  | succ fuel ih =>
      rw [exchangeDataBlock]
      by_cases hend : len - n = 0
      · obtain rfl : n = len := by omega
        rw [if_pos hend]
        exact ⟨_, _, rfl, hp⟩
      · rw [if_neg hend]
        have hA : 0 < addrsPerBlock := by decide
        have hp₁ : Progress E (ranges h) full v₀ n st.tick := hp.same hp.wf.tick (sameFiles_tick st)
        have hp₂ : Progress E (ranges h) full v₀ n st.tick.tick :=
          hp₁.same hp₁.wf.tick (sameFiles_tick _)
        simp only []
        generalize holen : min (4 * addrsPerBlock) (len - n) = olen
        have hfits : n + olen ≤ (ranges h).len := by
          show n + olen ≤ len
          omega
        have hc : Chunk (ranges h) srcInode dstInode n (src + n) (dst + n) olen :=
          ⟨fun k => congrArg (Slot.mk srcInode) (Nat.add_assoc _ _ _).symm,
            fun k => congrArg (Slot.mk dstInode) (Nat.add_assoc _ _ _).symm, hfits⟩
        by_cases hmem₁ : (E.fault st.calls).isSome = true
        · rw [if_pos hmem₁]
          exact ⟨_, _, rfl, n, hn, (hp₁.halted hn).settled⟩
        · rw [if_neg hmem₁]
          by_cases hmem₂ : (E.fault st.tick.calls).isSome = true
          · rw [if_pos hmem₂]
            exact ⟨_, _, rfl, n, hn, (hp₂.halted hn).settled⟩
          · rw [if_neg hmem₂]
            obtain ⟨b, st₁, t₁, hread, hspec⟩ := chunk_spec hc (by omega) hp₂
            rw [hread]
            cases b with
            | false => exact ⟨_, _, rfl, hspec⟩
            | true =>
                obtain ⟨b', st₂, t₂, hclone, hchunk⟩ := hspec
                simp only [hclone]
                cases b' with
                | false => exact ⟨_, _, rfl, hchunk⟩
                | true =>
                    have hnext := ih (n := n + olen) hfits (by omega) hchunk
                    rw [← Nat.add_assoc, ← Nat.add_assoc, ← Nat.sub_sub] at hnext
                    exact hnext

end Exchange

/-! ## What becomes of the blocks -/

/-- The dirty pages of both ranges have been written out. -/
def Flushed (r : Rows Slot) (st : Blocks V) : Prop :=
  ∀ k < r.len, st.pages (r.source k) = none ∧ st.pages (r.dest k) = none

/-- **The blocks have been moved.** -/
structure Exchanged (E : FsEnv V) (r : Rows Slot) (full : Bool) (v₀ v : Blocks V) : Prop where
  moved : ∀ k < r.len, v₀.addr (r.source k) ≠ nullAddr →
    v.held E (r.dest k) = v₀.held E (r.source k)
  holes : full = true → ∀ k < r.len, v₀.addr (r.source k) = nullAddr →
    v.addr (r.dest k) = nullAddr
  kept : full = false → ∀ k < r.len, v₀.addr (r.source k) = nullAddr → ¬ AfterTaken E r v₀ k →
    (∀ j < r.len, r.dest k ≠ r.source j) → v.held E (r.dest k) = v₀.held E (r.dest k)
  /-- A slot of the source range is empty, unless a block has been moved to it. -/
  source : ∀ k < r.len, (∀ j < r.len, v₀.addr (r.source j) ≠ nullAddr → r.source k ≠ r.dest j) →
    v.addr (r.source k) = nullAddr
  /-- An address that has been in the source range is where it has been moved to, or nowhere. -/
  gone : ∀ k < r.len, IsValidBlkaddr (v₀.addr (r.source k)) →
    ∀ x, v.addr x = v₀.addr (r.source k) → x = r.dest k
  frame : ∀ x, (∀ k < r.len, x ≠ r.source k ∧ x ≠ r.dest k) → v.held E x = v₀.held E x

/-- A block of the source range is at its destination, and nowhere else. -/
def MovedTo (E : FsEnv V) (r : Rows Slot) (v₀ v : Blocks V) (k : ℕ) : Prop :=
  v.held E (r.dest k) = v₀.held E (r.source k) ∧
    (IsValidBlkaddr (v₀.addr (r.source k)) → ∀ x, v.addr x = v₀.addr (r.source k) → x = r.dest k)

lemma Progress.exchanged {E : FsEnv V} {r : Rows Slot} {full : Bool} {v₀ v : Blocks V}
    (h : Progress E r full v₀ r.len v) : Exchanged E r full v₀ v := by
  have hm := h.run.moved le_rfl
  have hhole : ∀ {k}, v₀.addr (r.source k) = nullAddr → v₀.held E (r.source k) = none :=
    fun hk => held_eq_none.mpr hk
  refine ⟨fun k hk hmapped => hm.moved k hk fun hnone => hmapped (held_eq_none.mp hnone),
    fun hfull k hk hnull => held_eq_none.mp (hm.emptied k hk (hhole hnull) (by simp [hfull])),
    fun hfull k hk hnull hnot hout => hm.kept k hk (hhole hnull) ?_ hout,
    fun k hk hout => held_eq_none.mp (hm.source k hk fun j hj hfull => hout j hj ?_),
    h.gone, hm.frame⟩
  · rintro (htrue | hafter)
    · exact absurd (htrue.symm.trans hfull) (by simp)
    · exact hnot hafter
  · exact fun hnull => hfull (hhole hnull)

lemma Settled.placed {E : FsEnv V} {r : Rows Slot} {v₀ v : Blocks V} {n k : ℕ}
    (h : Settled E r v₀ n v) (hk : k < r.len) (hmapped : v₀.addr (r.source k) ≠ nullAddr) :
    Kept E r v₀ v k ∨ MovedTo E r v₀ v k ∨ Released E r v₀ v k := by
  rcases Nat.lt_or_ge k n with hlt | hge
  · exact Or.inr (Or.inl ⟨h.moved k hlt fun hnone => hmapped (held_eq_none.mp hnone), h.gone k hlt⟩)
  · exact (h.ahead k hge hk).imp_right Or.inr

/-- **What an exchange does to the blocks.**  It ends, with one owner for every block and with the
counts right.  If it goes through, the blocks have been moved; if it fails, each block of the source
range is where it was, or at its destination, or has been released as its node could not be read when
it was put back. -/
theorem exchange_data_block_keeps (E : FsEnv V) (srcInode dstInode src dst len fuel : ℕ) (full : Bool)
    (st : Blocks V) (hapart : Apart srcInode dstInode src dst len) (hwf : Wf E st)
    (hflushed : Flushed (ranges hapart) st) (hfuel : len ≤ fuel) :
    ∃ ok st', exchangeDataBlock E srcInode dstInode full fuel src dst len st = some (ok, st') ∧
      Wf E st' ∧ (ok = true → Exchanged E (ranges hapart) full st st') ∧
      (ok = false → ∀ k < len, st.addr ⟨srcInode, src + k⟩ ≠ nullAddr →
        Kept E (ranges hapart) st st' k ∨ MovedTo E (ranges hapart) st st' k ∨
          Released E (ranges hapart) st st' k) := by
  have hstart : Progress E (ranges hapart) full st 0 st :=
    ⟨hwf, rfl, .start, fun k _ _ => rfl, fun k _ hk => (hflushed k hk).1,
      fun k _ hk => (hflushed k hk).2, fun k hk => absurd hk (Nat.not_lt_zero k)⟩
  obtain ⟨ok, st', hrun, hend⟩ := exchange_spec hapart (Nat.zero_le len)
    (show len ≤ 0 + fuel by omega) hstart
  refine ⟨ok, st', hrun, ?_⟩
  cases ok with
  | true =>
      have hprog : Progress E (ranges hapart) full st len st' := hend
      exact ⟨hprog.wf, fun _ => hprog.exchanged, fun hno => absurd hno (by simp)⟩
  | false =>
      obtain ⟨m, -, hsettled⟩ := hend
      exact ⟨hsettled.wf, fun hno => absurd hno (by simp), fun _ k hk hmapped =>
        hsettled.placed hk hmapped⟩

/-! ## Files that are not empty -/

/-- The files of a new file system. -/
def noFiles : Blocks ℕ :=
  ⟨fun _ => nullAddr, ∅, fun _ => false, fun _ => 0, 0, BitVec.toNat, fun _ => none, fun _ => 0, 0⟩

/-- A block is written to a hole. -/
def Blocks.placeBlock (st : Blocks V) (x : Slot) (a : BitVec 32) : Blocks V :=
  { (st.addValidBlockCount x.ino 1).setAddr x a with
    validMap := Function.update st.validMap a true }

lemma noFiles_wf (E : FsEnv ℕ) : Wf E noFiles := by
  have hcount : ∀ (P : ℕ → Prop) [DecidablePred P], noFiles.blockCount P = 0 := by
    intro P _
    simp [blockCount, noFiles]
  refine ⟨by simp [noFiles], fun x y hx => absurd rfl hx.1, fun a => ?_, fun x hx => absurd rfl hx,
    fun ino => (hcount _).symm, (hcount _).symm⟩
  refine iff_of_false (by simp [noFiles]) ?_
  rintro ⟨hvalid, x, rfl⟩
  exact hvalid.1 rfl

/-- **A block that is written has one owner.** -/
lemma Wf.placeBlock {E : FsEnv V} {st : Blocks V} {x : Slot} {a : BitVec 32} (h : Wf E st)
    (hx : st.addr x = nullAddr) (ha : IsValidBlkaddr a) (hfree : st.validMap a = false)
    (hreach : st.Reached E x) : Wf E (st.placeBlock x a) := by
  have haddr : (st.placeBlock x a).addr = Function.update st.addr x a := rfl
  have hother : ∀ y, st.addr y ≠ a := by
    intro y hy
    exact absurd ((h.valid a).mpr ⟨ha, y, hy⟩) (by simp [hfree])
  refine ⟨update_finite h.finite x a, fun y z hy hyz => ?_, fun b => ?_, fun y hy => ?_,
    fun ino => ?_, ?_⟩
  · rw [haddr] at hy hyz
    by_cases hyx : y = x
    · by_cases hzx : z = x
      · rw [hyx, hzx]
      · rw [hyx, Function.update_self, Function.update_of_ne hzx] at hyz
        exact absurd hyz.symm (hother z)
    · rw [Function.update_of_ne hyx] at hy hyz
      by_cases hzx : z = x
      · rw [hzx, Function.update_self] at hyz
        exact absurd hyz (hother y)
      · rw [Function.update_of_ne hzx] at hyz
        exact h.owner y z hy hyz
  · show Function.update st.validMap a true b = true ↔ _
    rw [haddr]
    by_cases hb : b = a
    · subst hb
      rw [Function.update_self]
      exact iff_of_true rfl ⟨ha, x, Function.update_self _ _ _⟩
    · rw [Function.update_of_ne hb, h.valid]
      refine and_congr_right fun hvalid => ⟨?_, ?_⟩
      · rintro ⟨y, rfl⟩
        refine ⟨y, Function.update_of_ne ?_ _ _⟩
        rintro rfl
        exact hvalid.1 hx
      · rintro ⟨y, hy⟩
        by_cases hyx : y = x
        · rw [hyx, Function.update_self] at hy
          exact absurd hy.symm hb
        · rw [Function.update_of_ne hyx] at hy
          exact ⟨y, hy⟩
  · by_cases hyx : y = x
    · subst hyx
      exact Reached.congr hreach (Finset.Subset.refl _)
    · rw [haddr, Function.update_of_ne hyx] at hy
      exact Reached.congr (h.reached y hy) (Finset.Subset.refl _)
  · rw [blockCount_set h.finite hx ha.1 haddr rfl, ← h.iBlocks]
    simp only [Blocks.placeBlock, addValidBlockCount, iBlocksWrite, setAddr,
      Function.update_apply, eq_comm (a := ino)]
    split_ifs with hino
    · rw [hino]
    · exact (Int.add_zero _).symm
  · rw [blockCount_set h.finite hx ha.1 haddr rfl, ← h.total, if_pos trivial]
    rfl

/-- A file with block 10 in its first slot, which no checkpoint has, and blocks 20 and 21 behind a
hole. -/
def someBlocks : Blocks ℕ :=
  ((noFiles.placeBlock ⟨1, 0⟩ 10#32).placeBlock ⟨1, 6⟩ 20#32).placeBlock ⟨1, 7⟩ 21#32

/-- A file system where call `n` fails. -/
def failingAt (n : ℕ) : FsEnv ℕ :=
  ⟨fun _ => plainLayout, fun a => a != 10#32, false, 0, fun k => if k = n then some 0 else none,
    fun _ => true⟩

lemma someBlocks_wf (n : ℕ) : Wf (failingAt n) someBlocks := by
  have hreach : ∀ (st : Blocks ℕ) (i : ℕ), i < 923 → st.Reached (failingAt n) ⟨1, i⟩ :=
    fun st i hi => ⟨⟨0, [i], [0]⟩, getNodePath_eq_some_iff.mpr (.inode i hi), rfl⟩
  have hfirst : Wf (failingAt n) (noFiles.placeBlock ⟨1, 0⟩ 10#32) :=
    (noFiles_wf _).placeBlock rfl (by decide) rfl (hreach _ 0 (by decide))
  exact (hfirst.placeBlock (by decide) (by decide) (by decide) (hreach _ 6 (by decide))).placeBlock
    (by decide) (by decide) (by decide) (hreach _ 7 (by decide))

lemma someBlocks_flushed (r : Rows Slot) : Flushed r someBlocks := fun _ _ => ⟨rfl, rfl⟩

/-- What a run that is evaluated says. -/
lemma exists_of_map {α : Type} {o : Option (Bool × Blocks V)} {ok : Bool} {a : α} (f : Blocks V → α)
    (h : o.map (fun r => (r.1, f r.2)) = some (ok, a)) : ∃ st', o = some (ok, st') ∧ f st' = a := by
  obtain ⟨⟨ok', st'⟩, hrun, heq⟩ := Option.map_eq_some_iff.mp h
  obtain ⟨rfl, rfl⟩ := Prod.mk.inj heq
  exact ⟨st', hrun, rfl⟩

/-- A block can be lost: it has been taken out, then something fails, and its node cannot be read when
it is put back.  The destination of a hole does not stay as it is when it lies in the source range, nor
when it is behind a block that has been put in.  And a range that is moved forward, over itself, does
not arrive. -/
theorem exchange_not_exact :
    Wf (failingAt 3) someBlocks ∧ Wf (failingAt 100) someBlocks ∧
    (∀ r, Flushed r someBlocks) ∧
    (∃ st', exchangeDataBlock (failingAt 3) 1 1 false 1 0 5 1 someBlocks = some (false, st') ∧
      someBlocks.addr ⟨1, 0⟩ = 10#32 ∧ st'.addr ⟨1, 0⟩ ≠ 10#32 ∧ st'.addr ⟨1, 5⟩ ≠ 10#32) ∧
    (∃ st', exchangeDataBlock (failingAt 100) 1 1 false 2 7 6 2 someBlocks = some (true, st') ∧
      someBlocks.addr ⟨1, 8⟩ = nullAddr ∧
      st'.held (failingAt 100) ⟨1, 7⟩ ≠ someBlocks.held (failingAt 100) ⟨1, 7⟩) ∧
    (∃ st', exchangeDataBlock (failingAt 100) 1 1 false 2 0 5 2 someBlocks = some (true, st') ∧
      someBlocks.addr ⟨1, 1⟩ = nullAddr ∧
      st'.held (failingAt 100) ⟨1, 6⟩ ≠ someBlocks.held (failingAt 100) ⟨1, 6⟩) ∧
    (∃ st', exchangeDataBlock (failingAt 100) 1 1 false 2 6 7 2 someBlocks = some (true, st') ∧
      st'.held (failingAt 100) ⟨1, 7⟩ ≠ someBlocks.held (failingAt 100) ⟨1, 6⟩) := by
  refine ⟨someBlocks_wf 3, someBlocks_wf 100, someBlocks_flushed, ?_, ?_, ?_, ?_⟩
  · obtain ⟨st', hrun, heq⟩ : ∃ st', exchangeDataBlock (failingAt 3) 1 1 false 1 0 5 1 someBlocks
        = some (false, st') ∧ (st'.addr ⟨1, 0⟩, st'.addr ⟨1, 5⟩) = (0#32, 0#32) :=
      exists_of_map (fun st => (st.addr ⟨1, 0⟩, st.addr ⟨1, 5⟩)) (by decide +kernel)
    obtain ⟨hsource, hdest⟩ := Prod.mk.inj heq
    refine ⟨st', hrun, by decide, ?_, ?_⟩
    · rw [hsource]
      decide
    · rw [hdest]
      decide
  · obtain ⟨st', hrun, heq⟩ := exists_of_map (a := none) (fun st => st.held (failingAt 100) ⟨1, 7⟩)
      (show (exchangeDataBlock (failingAt 100) 1 1 false 2 7 6 2 someBlocks).map _ = some (true, none)
        by decide +kernel)
    exact ⟨st', hrun, by decide, heq ▸ by decide +kernel⟩
  · obtain ⟨st', hrun, heq⟩ := exists_of_map (a := none) (fun st => st.held (failingAt 100) ⟨1, 6⟩)
      (show (exchangeDataBlock (failingAt 100) 1 1 false 2 0 5 2 someBlocks).map _ = some (true, none)
        by decide +kernel)
    exact ⟨st', hrun, by decide, heq ▸ by decide +kernel⟩
  · obtain ⟨st', hrun, heq⟩ := exists_of_map (a := none) (fun st => st.held (failingAt 100) ⟨1, 7⟩)
      (show (exchangeDataBlock (failingAt 100) 1 1 false 2 6 7 2 someBlocks).map _ = some (true, none)
        by decide +kernel)
    exact ⟨st', hrun, heq ▸ by decide +kernel⟩

theorem exchange_data_block_keeps_someBlocks :
    ∃ ok st', exchangeDataBlock (failingAt 100) 1 1 true 2 6 0 2 someBlocks = some (ok, st') ∧
      Wf (failingAt 100) st' ∧
      (ok = true → Exchanged (failingAt 100) (ranges (Or.inr (Or.inl (by decide)) :
        Apart 1 1 6 0 2)) true someBlocks st') ∧
      (ok = false → ∀ k < 2, someBlocks.addr ⟨1, 6 + k⟩ ≠ nullAddr →
        Kept (failingAt 100) (ranges (Or.inr (Or.inl (by decide)) : Apart 1 1 6 0 2)) someBlocks st'
          k ∨
        MovedTo (failingAt 100) (ranges (Or.inr (Or.inl (by decide)) : Apart 1 1 6 0 2)) someBlocks
          st' k ∨
        Released (failingAt 100) (ranges (Or.inr (Or.inl (by decide)) : Apart 1 1 6 0 2)) someBlocks
          st' k) :=
  exchange_data_block_keeps (failingAt 100) 1 1 6 0 2 2 true someBlocks (Or.inr (Or.inl (by decide)))
    (someBlocks_wf 100) (someBlocks_flushed _) le_rfl

end Hoit.BlockExchange
