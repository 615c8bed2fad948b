import HoitF2fs.Nvm.MetaMapping

/-!
# Replaying data indices

Roll-forward recovery takes node blocks that were written after the last checkpoint and copies the
data indices they record into the node pages of the file, one index after the other.  This file
is about one such index: what `do_recover_data` does with it, and what that does to *other*
indices, since `check_index_in_prev_nodes` takes a block away from its previous owner.  A file that
loses its last link while names are recovered loses all its indices.

**The code.**
* `truncateDataBlocksRange`, `reserveNewBlock`, `checkIndexInPrevNodes`, `replaceBlock` — the
  functions that change an index, with the validity bit and the summary of the blocks involved.
* `recoverIndex` — the body of the loop in `do_recover_data`.
* `evictInode` — the last `iput` of an inode without links.

**The abstract reading.**
* `ReplayOp` — what a node block asks for: an index, or that the file has inline data; and the
  eviction of an inode.
* `FsOk` — a block that is the address of an index is valid and its summary names that index; so
  no block has two owners.
* `ReplayOp.Writes`, `ReplayOp.Keeps` — when an operation gives an index an address, and when it
  leaves an index that has this address as it is.  They mention the operation only.

`addr_replayStep_iff` connects the two, and `addr_replay_iff` reads the final address of an index
off the operations: **it is `a` iff `a` was written and kept since.**
-/

namespace Hoit

open Transition

variable (l : Layout)

/-- A data index of a file. -/
structure Slot where
  ino : ℕ
  bidx : ℕ
deriving DecidableEq

/-- What recovery reads and changes of the mounted file system. -/
structure RecoverFs where
  /-- The data indices in the node pages of files (`datablock_addr`).  Directories have theirs in
  the hot node log, which is not replayed; what recovery changes of them is not followed. -/
  addr : Slot → BitVec 32
  /-- `cur_valid_map`. -/
  valid : BitVec 32 → Bool
  /-- The summary entry of a block, by the index it names. -/
  summary : BitVec 32 → Slot
  /-- `f2fs_has_inline_data`. -/
  hasInlineData : ℕ → Bool
  /-- The NAT has an address for the inode. -/
  hasInode : ℕ → Bool

/-! ## One index -/

/-- `f2fs_invalidate_blocks`. -/
def invalidateBlocks (valid : BitVec 32 → Bool) (a : BitVec 32) : BitVec 32 → Bool :=
  if a = newAddr then valid else Function.update valid a false

/-- `f2fs_truncate_data_blocks_range` with a count of one. -/
def truncateDataBlocksRange (fs : RecoverFs) (s : Slot) : RecoverFs :=
  if fs.addr s = nullAddr then fs
  else
    { fs with
      addr := Function.update fs.addr s nullAddr
      valid := invalidateBlocks fs.valid (fs.addr s) }

/-- `f2fs_reserve_new_block` on an index without a block; `ok` is whether
`inc_valid_block_count` grants the block. -/
def reserveNewBlock (fs : RecoverFs) (s : Slot) (ok : Bool) : RecoverFs :=
  if ok then { fs with addr := Function.update fs.addr s newAddr } else fs

/-- How the node page of a block's previous owner is found. -/
inductive PrevLookup where
  | found
  /-- `f2fs_get_dnode_of_data` fails; this is not reported. -/
  | missed
  /-- The node page or the inode cannot be read; this is. -/
  | failed
deriving DecidableEq

/-- `check_index_in_prev_nodes`. -/
def checkIndexInPrevNodes (fs : RecoverFs) (blkaddr : BitVec 32) (prev : PrevLookup) :
    Option RecoverFs :=
  if fs.valid blkaddr then
    match prev with
    | .found =>
        if fs.addr (fs.summary blkaddr) = blkaddr then
          some (truncateDataBlocksRange fs (fs.summary blkaddr))
        else some fs
    | .missed => some fs
    | .failed => none
  else some fs

/-- `f2fs_replace_block`: the new block becomes valid, the old one, if there is one, invalid. -/
def replaceBlock (fs : RecoverFs) (s : Slot) (oldAddr newBlk : BitVec 32) : RecoverFs :=
  { fs with
    addr := Function.update fs.addr s newBlk
    valid :=
      if IsValidBlkaddr oldAddr then
        Function.update (Function.update fs.valid newBlk true) oldAddr false
      else Function.update fs.valid newBlk true
    summary := Function.update fs.summary newBlk s }

/-- The loop body of `do_recover_data`; `none` is an error. -/
def recoverIndex (fs : RecoverFs) (s : Slot) (dest : BitVec 32) (reserve : Bool)
    (prev : PrevLookup) : Option RecoverFs :=
  if fs.addr s = dest then some fs
  else if dest = nullAddr then some (truncateDataBlocksRange fs s)
  -- The result of the reservation is not looked at here.
  else if dest = newAddr then some (reserveNewBlock (truncateDataBlocksRange fs s) s reserve)
  else if f2fsIsValidPorBlkaddr l dest.toNat then
    if fs.addr s = nullAddr then
      if reserve then
        (checkIndexInPrevNodes (reserveNewBlock fs s reserve) dest prev).map fun fs' =>
          replaceBlock fs' s nullAddr dest
      else none
    else
      (checkIndexInPrevNodes fs dest prev).map fun fs' => replaceBlock fs' s (fs.addr s) dest
  -- Any other address is passed over in silence.
  else some fs

/-! ## Operations -/

inductive ReplayOp where
  /-- The inode has no inline data (any more). -/
  | removeInline (ino : ℕ)
  /-- The inode has inline data, and therefore no data blocks. -/
  | recoverInline (ino : ℕ)
  | index (s : Slot) (dest : BitVec 32) (reserve : Bool) (prev : PrevLookup)
  /-- The inode has no link any more, and nothing holds it. -/
  | evict (ino : ℕ)
deriving DecidableEq

/-- `f2fs_truncate_blocks` from offset 0.  The blocks of the file are those whose summary names an
index of it that has their address. -/
def truncateBlocks (fs : RecoverFs) (ino : ℕ) : RecoverFs :=
  { fs with
    addr := fun s => if s.ino = ino then nullAddr else fs.addr s
    valid := fun a =>
      if IsValidBlkaddr a ∧ (fs.summary a).ino = ino ∧ fs.addr (fs.summary a) = a then false
      else fs.valid a }

def setInlineData (fs : RecoverFs) (ino : ℕ) (flag : Bool) : RecoverFs :=
  { fs with hasInlineData := Function.update fs.hasInlineData ino flag }

/-- `f2fs_evict_inode` on an inode without links: the file is truncated and the inode removed. -/
def evictInode (fs : RecoverFs) (ino : ℕ) : RecoverFs :=
  { setInlineData (truncateBlocks fs ino) ino false with
    hasInode := Function.update fs.hasInode ino false }

def replayStep (fs : RecoverFs) : ReplayOp → Option RecoverFs
  | .removeInline ino => some (setInlineData fs ino false)
  | .recoverInline ino => some (setInlineData (truncateBlocks fs ino) ino true)
  | .index s dest reserve prev => recoverIndex l fs s dest reserve prev
  | .evict ino => some (evictInode fs ino)

/-- The address that an operation records for an index, if it records one. -/
def ReplayOp.record (s : Slot) : ReplayOp → Option (BitVec 32)
  | .removeInline _ => none
  | .recoverInline ino => if s.ino = ino then some nullAddr else none
  | .index s' dest _ _ => if s' = s then some dest else none
  | .evict _ => none

/-- The address that the last operation about an index records. -/
def lastRecord (s : Slot) : List ReplayOp → Option (BitVec 32)
  | [] => none
  | op :: ops => (lastRecord s ops).or (op.record s)

/-- The operation gives index `s` the address `a`, whatever it had. -/
def ReplayOp.Writes (s : Slot) (a : BitVec 32) : ReplayOp → Prop
  | .index s' dest reserve _ =>
      s' = s ∧ dest = a ∧
        ((a = newAddr ∧ reserve = true) ∨ (IsValidBlkaddr a ∧ f2fsIsValidPorBlkaddr l a.toNat))
  | .removeInline _ => False
  | .recoverInline _ => False
  | .evict _ => False

/-- The operation leaves index `s` alone if it has the address `a`. -/
def ReplayOp.Keeps (s : Slot) (a : BitVec 32) : ReplayOp → Prop
  | .index s' dest _ _ =>
      if s' = s then
        dest = a ∨ (IsValidBlkaddr dest ∧ ¬ f2fsIsValidPorBlkaddr l dest.toNat)
      else ¬ (dest = a ∧ IsValidBlkaddr a ∧ f2fsIsValidPorBlkaddr l a.toNat)
  | .removeInline _ => True
  | .recoverInline ino => s.ino ≠ ino
  | .evict ino => s.ino ≠ ino

/-! ## Owners of blocks -/

variable {l} {fs fs' : RecoverFs} {s t : Slot} {a dest : BitVec 32} {reserve : Bool}
  {prev : PrevLookup}

structure FsOk (fs : RecoverFs) : Prop where
  /-- A block that is the address of an index is valid, and its summary names the index. -/
  owner : ∀ s, IsValidBlkaddr (fs.addr s) →
    fs.valid (fs.addr s) = true ∧ fs.summary (fs.addr s) = s
  /-- A file with inline data has no blocks. -/
  inline_null : ∀ s, fs.hasInlineData s.ino = true → fs.addr s = nullAddr

/-- No block has two owners. -/
lemma FsOk.unique (h : FsOk fs) (ha : IsValidBlkaddr a) (hs : fs.addr s = a)
    (ht : fs.addr t = a) : s = t := by
  subst hs
  rw [← (h.owner s ha).2, ← ht]
  exact (h.owner t (ht ▸ ha)).2

@[simp] lemma truncate_addr_self : (truncateDataBlocksRange fs s).addr s = nullAddr := by
  unfold truncateDataBlocksRange
  split_ifs with h
  · exact h
  · simp

lemma truncate_addr_of_ne (h : t ≠ s) : (truncateDataBlocksRange fs s).addr t = fs.addr t := by
  unfold truncateDataBlocksRange
  split_ifs
  · rfl
  · simp [h]

@[simp] lemma truncate_summary : (truncateDataBlocksRange fs s).summary = fs.summary := by
  unfold truncateDataBlocksRange
  split_ifs <;> rfl

@[simp] lemma truncate_hasInlineData :
    (truncateDataBlocksRange fs s).hasInlineData = fs.hasInlineData := by
  unfold truncateDataBlocksRange
  split_ifs <;> rfl

lemma truncate_valid_of_ne (h : a ≠ fs.addr s) :
    (truncateDataBlocksRange fs s).valid a = fs.valid a := by
  unfold truncateDataBlocksRange invalidateBlocks
  split_ifs
  · rfl
  · rfl
  · simp [h]

/-- Truncating an index frees its block and no other. -/
lemma FsOk.truncate (h : FsOk fs) : FsOk (truncateDataBlocksRange fs s) where
  owner := by
    intro t ht
    by_cases hts : t = s
    · subst hts
      rw [truncate_addr_self] at ht
      exact absurd rfl ht.1
    · rw [truncate_addr_of_ne hts] at ht ⊢
      have hne : fs.addr t ≠ fs.addr s := fun heq => hts (h.unique ht rfl heq.symm)
      rw [truncate_valid_of_ne hne, truncate_summary]
      exact h.owner t ht
  inline_null := by
    intro t ht
    by_cases hts : t = s
    · rw [hts, truncate_addr_self]
    · rw [truncate_addr_of_ne hts]
      exact h.inline_null t (by simpa using ht)

/-- A reserved index has no block. -/
lemma FsOk.reserveNewBlock (h : FsOk fs) (hs : fs.hasInlineData s.ino = false) :
    FsOk (reserveNewBlock fs s reserve) := by
  unfold Hoit.reserveNewBlock
  split_ifs
  · refine ⟨fun t ht => ?_, fun t ht => ?_⟩
    · by_cases hts : t = s
      · subst hts
        simp only [Function.update_self] at ht
        exact absurd rfl ht.2
      · simp only [ne_eq, hts, not_false_eq_true, Function.update_of_ne] at ht ⊢
        exact h.owner t ht
    · have hts : t ≠ s := by
        rintro rfl
        simp [hs] at ht
      simpa [hts] using h.inline_null t ht
  · exact h

/-- The state in which no index has the block `dest` any more. -/
def withoutOwner (fs : RecoverFs) (dest : BitVec 32) : RecoverFs :=
  if fs.valid dest = true ∧ fs.addr (fs.summary dest) = dest then
    truncateDataBlocksRange fs (fs.summary dest)
  else fs

/-- **The previous owner is found**: `check_index_in_prev_nodes` truncates the one index that has
the block. -/
lemma checkIndexInPrevNodes_eq (hprev : prev ≠ .missed)
    (h : checkIndexInPrevNodes fs dest prev = some fs') : fs' = withoutOwner fs dest := by
  unfold checkIndexInPrevNodes at h
  unfold withoutOwner
  by_cases hv : fs.valid dest = true
  · cases prev with
    | found =>
        by_cases ho : fs.addr (fs.summary dest) = dest <;> simp_all
    | missed => exact absurd rfl hprev
    | failed => simp [hv] at h
  · simp_all

lemma FsOk.withoutOwner (h : FsOk fs) : FsOk (withoutOwner fs dest) := by
  unfold Hoit.withoutOwner
  split_ifs
  · exact h.truncate
  · exact h

@[simp] lemma withoutOwner_hasInlineData :
    (withoutOwner fs dest).hasInlineData = fs.hasInlineData := by
  unfold withoutOwner
  split_ifs <;> simp

lemma withoutOwner_addr (h : FsOk fs) (hd : IsValidBlkaddr dest) (t : Slot) :
    (withoutOwner fs dest).addr t = if fs.addr t = dest then nullAddr else fs.addr t := by
  by_cases ht : fs.addr t = dest
  · subst ht
    have hown := h.owner t hd
    simp [withoutOwner, hown.1, hown.2]
  · rw [if_neg ht, withoutOwner]
    split_ifs with ho
    · refine truncate_addr_of_ne ?_
      rintro rfl
      exact ht ho.2
    · rfl

/-- A block without an owner may be given to an index. -/
lemma FsOk.replaceBlock {src : BitVec 32} (h : FsOk fs) (hs : fs.hasInlineData s.ino = false)
    (hfree : ∀ t, fs.addr t ≠ dest) (hsrc : IsValidBlkaddr src → fs.addr s = src) :
    FsOk (replaceBlock fs s src dest) where
  owner := by
    intro t ht
    by_cases hts : t = s
    · subst hts
      have hne : IsValidBlkaddr src → dest ≠ src := fun hv heq => hfree t ((hsrc hv).trans heq.symm)
      by_cases hv : IsValidBlkaddr src
      · simp [Hoit.replaceBlock, hv, hne hv]
      · simp [Hoit.replaceBlock, hv]
    · simp only [Hoit.replaceBlock, ne_eq, hts, not_false_eq_true, Function.update_of_ne] at ht ⊢
      have hown := h.owner t ht
      have hne : IsValidBlkaddr src → fs.addr t ≠ src := fun hv heq =>
        hts (h.unique hv heq (hsrc hv))
      by_cases hv : IsValidBlkaddr src
      · simp [hv, hne hv, hfree t, hown.1, hown.2]
      · simp [hv, hfree t, hown.1, hown.2]
  inline_null := by
    intro t ht
    have hts : t ≠ s := by
      rintro rfl
      simp [Hoit.replaceBlock, hs] at ht
    simpa [Hoit.replaceBlock, hts] using h.inline_null t ht

/-! ## What an operation does -/

/-- The outcomes of one index, in a state where blocks have one owner. -/
inductive IndexEffect (l : Layout) (fs : RecoverFs) (s : Slot) (dest : BitVec 32)
    (reserve : Bool) : RecoverFs → Prop
  | same : fs.addr s = dest → IndexEffect l fs s dest reserve fs
  | null : dest = nullAddr → IndexEffect l fs s dest reserve (truncateDataBlocksRange fs s)
  | reserved : fs.addr s ≠ newAddr → dest = newAddr →
      IndexEffect l fs s dest reserve
        (reserveNewBlock (truncateDataBlocksRange fs s) s reserve)
  | taken {fs' : RecoverFs} : IsValidBlkaddr dest → f2fsIsValidPorBlkaddr l dest.toNat = true →
      fs'.addr s = dest →
      (∀ t, t ≠ s → fs'.addr t = if fs.addr t = dest then nullAddr else fs.addr t) →
      FsOk fs' → fs'.hasInlineData = fs.hasInlineData →
      IndexEffect l fs s dest reserve fs'
  | skipped : IsValidBlkaddr dest → ¬ f2fsIsValidPorBlkaddr l dest.toNat = true →
      IndexEffect l fs s dest reserve fs

lemma withoutOwner_free (h : FsOk fs) (hd : IsValidBlkaddr dest) (t : Slot) :
    (withoutOwner fs dest).addr t ≠ dest := by
  rw [withoutOwner_addr h hd]
  split_ifs with ht
  · exact fun heq => hd.1 heq.symm
  · exact ht

/-- The block is taken from its owner and given to the index. -/
lemma IndexEffect.of_replaceBlock {fs₀ : RecoverFs} {src : BitVec 32} (h₀ : FsOk fs₀)
    (hin : fs₀.hasInlineData = fs.hasInlineData) (hs : fs.hasInlineData s.ino = false)
    (haddr : ∀ t, t ≠ s → fs₀.addr t = fs.addr t) (hsrc : IsValidBlkaddr src → fs₀.addr s = src)
    (hne : src ≠ dest) (hd : IsValidBlkaddr dest)
    (hpor : f2fsIsValidPorBlkaddr l dest.toNat = true) :
    IndexEffect l fs s dest reserve (replaceBlock (withoutOwner fs₀ dest) s src dest) := by
  refine .taken hd hpor (by simp [replaceBlock]) ?_ ?_ ?_
  · intro t ht
    simp only [replaceBlock, ne_eq, ht, not_false_eq_true, Function.update_of_ne]
    rw [withoutOwner_addr h₀ hd, haddr t ht]
  · refine h₀.withoutOwner.replaceBlock (by simp [hin, hs]) (withoutOwner_free h₀ hd) ?_
    intro hv
    rw [withoutOwner_addr h₀ hd, hsrc hv, if_neg hne]
  · simp [replaceBlock, hin]

lemma recoverIndex_effect (h : FsOk fs) (hs : fs.hasInlineData s.ino = false)
    (hprev : prev ≠ .missed) (hrec : recoverIndex l fs s dest reserve prev = some fs') :
    IndexEffect l fs s dest reserve fs' := by
  unfold recoverIndex at hrec
  split_ifs at hrec with hsame hnull hnew hpor hsrc hres
  · obtain rfl := Option.some.inj hrec
    exact .same hsame
  · obtain rfl := Option.some.inj hrec
    exact .null hnull
  · obtain rfl := Option.some.inj hrec
    exact .reserved (fun heq => hsame (heq.trans hnew.symm)) hnew
  · obtain ⟨fs₁, hcheck, rfl⟩ := Option.map_eq_some_iff.mp hrec
    obtain rfl := checkIndexInPrevNodes_eq hprev hcheck
    refine .of_replaceBlock (h.reserveNewBlock hs) ?_ hs ?_ (fun hv => absurd rfl hv.1)
      (Ne.symm hnull) ⟨hnull, hnew⟩ hpor
    · simp [reserveNewBlock, hres]
    · intro t ht
      simp [reserveNewBlock, hres, ht]
  · obtain ⟨fs₁, hcheck, rfl⟩ := Option.map_eq_some_iff.mp hrec
    obtain rfl := checkIndexInPrevNodes_eq hprev hcheck
    exact .of_replaceBlock h rfl hs (fun _ _ => rfl) (fun _ => rfl) hsame ⟨hnull, hnew⟩ hpor
  · obtain rfl := Option.some.inj hrec
    exact .skipped ⟨hnull, hnew⟩ hpor

lemma IndexEffect.fsOk (heff : IndexEffect l fs s dest reserve fs') (h : FsOk fs)
    (hs : fs.hasInlineData s.ino = false) : FsOk fs' := by
  cases heff with
  | same => exact h
  | null => exact h.truncate
  | reserved => exact h.truncate.reserveNewBlock (by simpa using hs)
  | taken _ _ _ _ hok _ => exact hok
  | skipped => exact h

lemma IndexEffect.hasInlineData (heff : IndexEffect l fs s dest reserve fs') :
    fs'.hasInlineData = fs.hasInlineData := by
  cases heff with
  | same => rfl
  | null => simp
  | reserved => cases reserve <;> simp [reserveNewBlock]
  | taken _ _ _ _ _ hin => exact hin
  | skipped => rfl

/-- The index itself. -/
lemma IndexEffect.addr_self_iff (heff : IndexEffect l fs s dest reserve fs') (ha : a ≠ nullAddr) :
    fs'.addr s = a ↔ (ReplayOp.index s dest reserve prev).Writes l s a ∨
      (fs.addr s = a ∧ (ReplayOp.index s dest reserve prev).Keeps l s a) := by
  have hnull : ¬ IsValidBlkaddr nullAddr := fun hv => hv.1 rfl
  have hnew : ¬ IsValidBlkaddr newAddr := fun hv => hv.2 rfl
  simp only [ReplayOp.Writes, ReplayOp.Keeps, true_and, if_true]
  cases heff with
  | same hsame => grind
  | null hdest => grind [truncate_addr_self]
  | reserved hne hdest =>
      subst hdest
      cases reserve with
      | true => simp [reserveNewBlock]; grind
      | false => simp [reserveNewBlock]; grind
  | taken hd hpor hself _ _ _ => grind
  | skipped hd hpor => grind

/-- The other indices lose the block that is taken, and keep everything else. -/
lemma IndexEffect.addr_other_iff (heff : IndexEffect l fs s dest reserve fs') (h : FsOk fs)
    (hts : t ≠ s) (ha : a ≠ nullAddr) :
    fs'.addr t = a ↔ fs.addr t = a ∧ (ReplayOp.index s dest reserve prev).Keeps l t a := by
  have hnew : ¬ IsValidBlkaddr newAddr := fun hv => hv.2 rfl
  simp only [ReplayOp.Keeps, Ne.symm hts, if_false]
  cases heff with
  | same hsame =>
      -- Were the block that of the other index too, it would have two owners.
      refine (and_iff_left_of_imp ?_).symm
      rintro hta ⟨rfl, hv, -⟩
      exact hts (h.unique hv hta hsame)
  | null hdest =>
      rw [truncate_addr_of_ne hts]
      grind
  | reserved hne hdest =>
      have hkeep : (reserveNewBlock (truncateDataBlocksRange fs s) s reserve).addr t
          = fs.addr t := by
        cases reserve <;> simp [reserveNewBlock, hts, truncate_addr_of_ne]
      rw [hkeep]
      grind
  | taken hd hpor hself hother _ _ =>
      rw [hother t hts]
      grind
  | skipped hd hpor => grind

/-- Without its blocks a file may have inline data or not. -/
lemma FsOk.truncateBlocks (h : FsOk fs) (ino : ℕ) (flag : Bool) :
    FsOk (setInlineData (truncateBlocks fs ino) ino flag) where
  owner := by
    intro t ht
    by_cases hino : t.ino = ino
    · simp only [setInlineData, Hoit.truncateBlocks, hino, if_true] at ht
      exact absurd rfl ht.1
    · simp only [setInlineData, Hoit.truncateBlocks, hino, if_false] at ht ⊢
      have hown := h.owner t ht
      simp [hown.1, hown.2, hino]
  inline_null := by
    intro t ht
    by_cases hino : t.ino = ino
    · simp [setInlineData, Hoit.truncateBlocks, hino]
    · simp only [setInlineData, Hoit.truncateBlocks, hino, if_false, ne_eq, not_false_eq_true,
        Function.update_of_ne] at ht ⊢
      exact h.inline_null t ht

lemma FsOk.evictInode (h : FsOk fs) (ino : ℕ) : FsOk (evictInode fs ino) :=
  ⟨(h.truncateBlocks ino false).owner, (h.truncateBlocks ino false).inline_null⟩

/-- A file with inline data has nothing to truncate. -/
lemma FsOk.truncateBlocks_eq_self (h : FsOk fs) {ino : ℕ} (hino : fs.hasInlineData ino = true) :
    Hoit.truncateBlocks fs ino = fs := by
  have hnull : ∀ s : Slot, s.ino = ino → fs.addr s = nullAddr := by
    rintro s rfl
    exact h.inline_null s hino
  have haddr : (fun s : Slot => if s.ino = ino then nullAddr else fs.addr s) = fs.addr := by
    funext s
    split_ifs with hs
    · exact (hnull s hs).symm
    · rfl
  have hvalid : (fun a => if IsValidBlkaddr a ∧ (fs.summary a).ino = ino ∧
      fs.addr (fs.summary a) = a then false else fs.valid a) = fs.valid := by
    funext a
    refine if_neg ?_
    rintro ⟨ha, hs, heq⟩
    exact ha.1 (heq.symm.trans (hnull _ hs))
  rw [Hoit.truncateBlocks, haddr, hvalid]

lemma FsOk.removeInline (h : FsOk fs) (ino : ℕ) : FsOk (setInlineData fs ino false) where
  owner := h.owner
  inline_null := by
    intro t ht
    have hino : t.ino ≠ ino := by
      rintro rfl
      simp [setInlineData] at ht
    exact h.inline_null t (by simpa [setInlineData, hino] using ht)

/-- What an operation relies on: an index is not replayed while the file has inline data, and the
previous owner of a block is found. -/
structure ReplayReady (fs : RecoverFs) (op : ReplayOp) : Prop where
  ok : FsOk fs
  index : ∀ s dest reserve prev, op = .index s dest reserve prev →
    fs.hasInlineData s.ino = false ∧ prev ≠ .missed

variable {op : ReplayOp} {ops : List ReplayOp}

lemma replayStep_ok (hready : ReplayReady fs op) (hstep : replayStep l fs op = some fs') :
    FsOk fs' := by
  cases op with
  | removeInline ino =>
      obtain rfl := Option.some.inj hstep
      exact hready.ok.removeInline ino
  | recoverInline ino =>
      obtain rfl := Option.some.inj hstep
      exact hready.ok.truncateBlocks ino true
  | evict ino =>
      obtain rfl := Option.some.inj hstep
      exact hready.ok.evictInode ino
  | index s dest reserve prev =>
      obtain ⟨hs, hprev⟩ := hready.index s dest reserve prev rfl
      exact (recoverIndex_effect hready.ok hs hprev hstep).fsOk hready.ok hs

/-- **One operation**: an index has the address `a` afterwards iff the operation gave it that
address, or it had it and the operation keeps it. -/
theorem addr_replayStep_iff (hready : ReplayReady fs op) (hstep : replayStep l fs op = some fs')
    (ha : a ≠ nullAddr) :
    fs'.addr t = a ↔ op.Writes l t a ∨ (fs.addr t = a ∧ op.Keeps l t a) := by
  cases op with
  | removeInline ino =>
      obtain rfl := Option.some.inj hstep
      simp [ReplayOp.Writes, ReplayOp.Keeps, setInlineData]
  | recoverInline ino =>
      obtain rfl := Option.some.inj hstep
      by_cases hino : t.ino = ino
      · simp [ReplayOp.Writes, ReplayOp.Keeps, setInlineData, truncateBlocks, hino, ha.symm]
      · simp [ReplayOp.Writes, ReplayOp.Keeps, setInlineData, truncateBlocks, hino]
  | evict ino =>
      obtain rfl := Option.some.inj hstep
      by_cases hino : t.ino = ino
      · simp [ReplayOp.Writes, ReplayOp.Keeps, evictInode, setInlineData, truncateBlocks, hino,
          ha.symm]
      · simp [ReplayOp.Writes, ReplayOp.Keeps, evictInode, setInlineData, truncateBlocks, hino]
  | index s dest reserve prev =>
      obtain ⟨hs, hprev⟩ := hready.index s dest reserve prev rfl
      have heff := recoverIndex_effect hready.ok hs hprev hstep
      by_cases hts : t = s
      · subst hts
        exact heff.addr_self_iff ha
      · have hother : fs'.addr t = a ↔
            fs.addr t = a ∧ (ReplayOp.index s dest reserve prev).Keeps l t a :=
          heff.addr_other_iff hready.ok hts ha
        simp [ReplayOp.Writes, Ne.symm hts, hother]

/-- An index without a block gets one by a record of its own only. -/
lemma addr_replayStep_null (hready : ReplayReady fs op) (hstep : replayStep l fs op = some fs')
    (hrec : op.record t = some nullAddr ∨ (op.record t = none ∧ fs.addr t = nullAddr)) :
    fs'.addr t = nullAddr := by
  by_contra hne
  rcases (addr_replayStep_iff hready hstep hne).mp rfl with hw | ⟨heq, hk⟩
  · cases op <;> grind [ReplayOp.Writes, ReplayOp.record, IsValidBlkaddr, newAddr, nullAddr]
  · cases op <;> grind [ReplayOp.Keeps, ReplayOp.record, IsValidBlkaddr]

/-! ## A whole replay -/

lemma replay_ok (hfs : FsOk fs) (hready : StepsMeet (replayStep l) ReplayReady fs ops)
    (hrun : exec (replayStep l) fs ops = some fs') : FsOk fs' :=
  (throughout_of_stepsMeet (fun _ _ _ _ hready hstep => replayStep_ok hready hstep) hfs
    hready).last hrun

/-- An index whose last record is empty has no block at the end. -/
lemma addr_replay_null (hready : StepsMeet (replayStep l) ReplayReady fs ops)
    (hrun : exec (replayStep l) fs ops = some fs')
    (hrec : lastRecord t ops = some nullAddr ∨
      (lastRecord t ops = none ∧ fs.addr t = nullAddr)) : fs'.addr t = nullAddr := by
  induction ops generalizing fs with
  | nil =>
      obtain rfl := Option.some.inj hrun
      simpa [lastRecord] using hrec
  | cons op ops ih =>
      obtain ⟨fs₁, hstep, hrun⟩ := exec_cons.mp hrun
      refine ih (hready.2 fs₁ hstep) hrun ?_
      rw [lastRecord] at hrec
      cases hlast : lastRecord t ops with
      | none =>
          simp only [hlast, Option.none_or] at hrec
          exact Or.inr ⟨rfl, addr_replayStep_null hready.1 hstep hrec⟩
      | some b => simpa [hlast] using hrec

/-- **The end of a replay.**  The address of an index, if it has one, was written by some
operation and kept since, or it was there before and has been kept throughout. -/
theorem addr_replay_iff (hready : StepsMeet (replayStep l) ReplayReady fs ops)
    (hrun : exec (replayStep l) fs ops = some fs') (ha : a ≠ nullAddr) :
    fs'.addr t = a ↔ Since (ReplayOp.Writes l t a) (ReplayOp.Keeps l t a) (fs.addr t = a) ops :=
  exec_since (P := fun fs => fs.addr t = a) (fun _ _ _ h hstep => addr_replayStep_iff h hstep ha)
    hready hrun

/-- **All records at once.** -/
theorem replay_recorded_iff (hfs : FsOk fs) (hready : StepsMeet (replayStep l) ReplayReady fs ops)
    (hrun : exec (replayStep l) fs ops = some fs') :
    (∀ s a, lastRecord s ops = some a → fs'.addr s = a ∧ (IsValidBlkaddr a → fs'.valid a = true)) ↔
      ∀ s a, lastRecord s ops = some a → a ≠ nullAddr →
        Since (ReplayOp.Writes l s a) (ReplayOp.Keeps l s a) (fs.addr s = a) ops := by
  constructor
  · intro h s a hlast ha
    exact (addr_replay_iff hready hrun ha).mp (h s a hlast).1
  · intro h s a hlast
    have haddr : fs'.addr s = a := by
      by_cases ha : a = nullAddr
      · subst ha
        exact addr_replay_null hready hrun (Or.inl hlast)
      · exact (addr_replay_iff hready hrun ha).mpr (h s a hlast ha)
    refine ⟨haddr, fun hv => ?_⟩
    rw [← haddr] at hv ⊢
    exact ((replay_ok hfs hready hrun).owner s hv).1

end Hoit
