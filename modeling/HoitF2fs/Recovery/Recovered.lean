import Mathlib.Data.List.TakeWhile
import HoitF2fs.Recovery.RollForward

/-!
# What roll-forward recovery recovers

* `OnDiskChain` — the chain of node blocks, with its blocks *anywhere* in the MAIN area.
* `replayOps` — the records of the blocks that should be replayed, and the evictions: the inodes
  that have lost their last link to a recovered name, at the moment when nothing holds them.
* `Recovered` — both passes visit the chain, the list of inodes is used up, and every index has
  the address that was recorded last.

`f2fs_is_valid_meta_blkaddr` accepts no block of the first two MAIN segments, so the chain ends at
a node block there, and an index that leads there is passed over.  `recovered_iff` is exact: every
block of the chain has to be accepted, and every recorded address has to be **written and kept, or
there before and kept** — where "kept" also says that no later record gives the block to another
index, since then the previous owner is truncated, and that the file is not evicted.
-/

namespace Hoit

open Transition

variable (l : Layout) (img : PorImage) (env : RecoveryEnv)

/-! ## What should happen -/

/-- The block is part of the chain: it lies in the MAIN area, anywhere, and its node block belongs
to the current checkpoint. -/
def InChain (blkaddr : BitVec 32) : Prop :=
  l.mainBlkaddr ≤ blkaddr.toNat ∧ blkaddr.toNat < l.maxBlkaddr ∧
    img.isRecoverableDnode blkaddr = true

instance (blkaddr : BitVec 32) : Decidable (InChain l img blkaddr) :=
  inferInstanceAs (Decidable (_ ∧ _))

/-- The chain of node blocks on the device.  It is finite, and therefore not looped
(`OnDiskChain.nodup`). -/
def OnDiskChain : BitVec 32 → List (BitVec 32) → Prop
  | blkaddr, [] => ¬ InChain l img blkaddr
  | blkaddr, b :: rest =>
      b = blkaddr ∧ InChain l img b ∧ OnDiskChain (img.node b).nextBlkaddr rest

/-- A fsync-marked block of the inode. -/
def PorImage.marks (ino : ℕ) (blkaddr : BitVec 32) : Bool :=
  (img.node blkaddr).fsync && (img.node blkaddr).ino == ino

/-- The block may put the inode on the list: it is fsync-marked, and the inode exists or comes
with the block. -/
def PorImage.brings (fs : RecoverFs) (ino : ℕ) (blkaddr : BitVec 32) : Bool :=
  img.marks ino blkaddr &&
    (fs.hasInode ino || ((img.node blkaddr).isInode && (img.node blkaddr).dent))

/-- The inode was fsynced. -/
def fsynced (fs : RecoverFs) (chain : List (BitVec 32)) (ino : ℕ) : Bool :=
  chain.any (img.brings fs ino)

/-- What a node block records. -/
def blockOps (blkaddr : BitVec 32) : List ReplayOp :=
  let n := img.node blkaddr
  if !n.isInode && n.hasXattrBlock then []
  else if n.isInode && n.inlineData then [.recoverInline n.ino]
  else
    .removeInline n.ino ::
      (List.range (img.addrsPerPage n)).map fun i =>
        .index ⟨n.ino, img.startBidxOfNode n.ofs n.ino + i⟩ (n.addrs i) (env.reserve blkaddr i)
          (env.prev blkaddr i)

/-- A fsync-marked inode block with a name. -/
def PorImage.dents (ino : ℕ) (blkaddr : BitVec 32) : Bool :=
  img.marks ino blkaddr && (img.node blkaddr).isInode && (img.node blkaddr).dent

/-- The inode is held, while the blocks `c` are still to come. -/
def heldUntil (isFsynced : ℕ → Bool) (c : List (BitVec 32)) (links : LinkState) (ino : ℕ) : Bool :=
  env.held ino || links.dirList.contains ino || (isFsynced ino && c.any (img.marks ino))

/-- An inode without links is evicted when nothing holds it. -/
def evictOps (held : ℕ → Bool) (links : LinkState) (ino : ℕ) : List ReplayOp :=
  if links.nlink ino = 0 ∧ held ino = false then [.evict ino] else []

/-- What the name of an inode block does: the directory is held from now on, another inode that has
the name loses it, and a link. -/
def dentryOps (isFsynced : ℕ → Bool) (c : List (BitVec 32)) (links : LinkState) (n : NodeBlock) :
    LinkState × List ReplayOp :=
  let links := links.addDir n.pino
  match links.dentry n.pino n.name with
  | none => (links.addDentry n.pino n.name n.ino, [])
  | some e =>
      if e = n.ino then (links, [])
      else
        let links := links.deleteEntry n.pino n.name e
        (links.addDentry n.pino n.name n.ino,
          evictOps (heldUntil img env isFsynced c links) links e)

/-- What a block of a fsynced inode does, with the blocks `rest` still to come.  The name counts in
the last block that has one. -/
def dnodeOps (isFsynced : ℕ → Bool) (links : LinkState) (b : BitVec 32) (rest : List (BitVec 32)) :
    LinkState × List ReplayOp :=
  let n := img.node b
  let links := links.recoverInode n
  let r :=
    if img.dents n.ino b && !rest.any (img.dents n.ino) then
      dentryOps img env isFsynced (b :: rest) links n
    else (links, [])
  (r.1, r.2 ++ blockOps img env b ++ evictOps (heldUntil img env isFsynced rest r.1) r.1 n.ino)

/-- What the blocks of fsynced inodes do, up to the last fsync-marked block of each. -/
def replayOps (isFsynced : ℕ → Bool) : LinkState → List (BitVec 32) → List ReplayOp
  | links, [] => links.dirList.flatMap (evictOps env.held links)
  | links, b :: rest =>
      if isFsynced (img.node b).ino && (b :: rest).any (img.marks (img.node b).ino) then
        (dnodeOps img env isFsynced links b rest).2
          ++ replayOps isFsynced (dnodeOps img env isFsynced links b rest).1 rest
      else replayOps isFsynced links rest

/-- The block that brings an inode which does not exist. -/
def bornAt (fs : RecoverFs) (chain : List (BitVec 32)) (ino : ℕ) : Option (BitVec 32) :=
  if fs.hasInode ino then none else chain.find? (img.brings fs ino)

/-- The names and links when the inodes of the chain have been found. -/
def foundLinks (fs : RecoverFs) (links : LinkState) (chain : List (BitVec 32)) : LinkState where
  dentry := links.dentry
  nlink := fun ino => if (bornAt img fs chain ino).isSome then 1 else links.nlink ino
  isDir := fun ino =>
    ((bornAt img fs chain ino).map fun b => (img.node b).isDir).getD (links.isDir ino)
  dirList := []

/-- What the whole chain does. -/
def chainOps (fs : RecoverFs) (links : LinkState) (chain : List (BitVec 32)) : List ReplayOp :=
  replayOps img env (fsynced img fs chain) (foundLinks img fs links chain) chain

/-- **Everything that was fsynced is recovered.** -/
structure Recovered (fs : RecoverFs) (links : LinkState) (chain : List (BitVec 32))
    (r : RecoverResult) : Prop where
  find : r.visitedFind = chain
  recover : ∀ v, r.visitedRecover = some v → v = chain
  /-- The second pass is left out only if there is nothing to do. -/
  unneeded : r.visitedRecover = none → ∀ ino, fsynced img fs chain ino = false
  empty : r.inodeList = []
  index : ∀ s a, lastRecord s (chainOps img env fs links chain) = some a →
    r.fs.addr s = a ∧ (IsValidBlkaddr a → r.fs.valid a = true)

/-- The condition under which it is. -/
structure RecoverCondition (fs : RecoverFs) (links : LinkState) (chain : List (BitVec 32)) :
    Prop where
  accepted : ∀ b ∈ chain, f2fsIsValidPorBlkaddr l b.toNat = true
  index : ∀ s a, lastRecord s (chainOps img env fs links chain) = some a → a ≠ nullAddr →
    Since (ReplayOp.Writes l s a) (ReplayOp.Keeps l s a) (fs.addr s = a)
      (chainOps img env fs links chain)

/-- The file system as the checkpoint left it, and `f2fs_recover_orphan_inodes` after it: an inode
without links is gone. -/
structure Checkpointed (fs : RecoverFs) (links : LinkState) : Prop where
  ok : FsOk fs
  linked : ∀ ino, fs.hasInode ino = true → links.nlink ino ≠ 0
  absent_null : ∀ s, fs.hasInode s.ino = false → fs.addr s = nullAddr
  absent_inline : ∀ ino, fs.hasInode ino = false → fs.hasInlineData ino = false

/-- Pages of nodes that exist can be had: no lookup fails in silence. -/
structure RecoveryEnv.PagesRead (env : RecoveryEnv) : Prop where
  prev : ∀ b i, env.prev b i ≠ .missed
  truncateBlocks : ∀ b, env.truncateBlocks b = true
  evict : ∀ ino, env.evict ino = true

/-! ## The chain -/

variable {l img env} {fs fs' : RecoverFs} {links : LinkState} {blkaddr b : BitVec 32}
  {chain c c' : List (BitVec 32)} {st st' : RecoverState}

lemma OnDiskChain.unique (h : OnDiskChain l img blkaddr c) (h' : OnDiskChain l img blkaddr c') :
    c = c' := by
  induction c generalizing blkaddr c' with
  | nil =>
      cases c' with
      | nil => rfl
      | cons b rest =>
          obtain ⟨rfl, hin, -⟩ := h'
          exact absurd hin h
  | cons b rest ih =>
      obtain ⟨rfl, hin, hrest⟩ := h
      cases c' with
      | nil => exact absurd hin h'
      | cons b' rest' =>
          obtain ⟨rfl, -, hrest'⟩ := h'
          rw [ih hrest hrest']

/-- From each of its blocks on, the rest of a chain is the chain of that block. -/
lemma OnDiskChain.suffix (h : OnDiskChain l img blkaddr c) (hb : b ∈ c) :
    ∃ c', OnDiskChain l img b c' ∧ c'.length ≤ c.length := by
  induction c generalizing blkaddr with
  | nil => simp at hb
  | cons d rest ih =>
      rcases List.mem_cons.mp hb with rfl | hb
      · obtain ⟨rfl, hin, hrest⟩ := h
        exact ⟨b :: rest, ⟨rfl, hin, hrest⟩, le_rfl⟩
      · obtain ⟨c', hc', hlen⟩ := ih h.2.2 hb
        exact ⟨c', hc', hlen.trans (by simp)⟩

/-- A finite chain is not looped. -/
lemma OnDiskChain.nodup (h : OnDiskChain l img blkaddr c) : c.Nodup := by
  induction c generalizing blkaddr with
  | nil => simp
  | cons b rest ih =>
      refine List.nodup_cons.mpr ⟨fun hb => ?_, ih h.2.2⟩
      obtain ⟨c', hc', hlen⟩ := h.2.2.suffix hb
      obtain rfl := h.1
      rw [hc'.unique h] at hlen
      simp at hlen

/-- An accepted block lies in the MAIN area, so both passes end where the chain does. -/
lemma OnDiskChain.ends (h : ¬ InChain l img b) (hacc : f2fsIsValidPorBlkaddr l b.toNat = true) :
    img.isRecoverableDnode b = false := by
  rw [f2fsIsValidPorBlkaddr_iff] at hacc
  by_contra hrec
  exact h ⟨by omega, hacc.2, by simpa using hrec⟩

/-! ## The first pass finds the fsynced inodes -/

/-- The last fsync-marked block of an inode. -/
def PorImage.lastMark (img : PorImage) (c : List (BitVec 32)) (ino : ℕ) : Option (BitVec 32) :=
  (c.filter (img.marks ino)).getLast?

lemma lastMark_append_of_marks {ino : ℕ} (h : img.marks ino b = true) :
    img.lastMark (c ++ [b]) ino = some b := by
  simp [PorImage.lastMark, h]

lemma lastMark_append_of_not {ino : ℕ} (h : img.marks ino b = false) :
    img.lastMark (c ++ [b]) ino = img.lastMark c ino := by
  simp [PorImage.lastMark, h]

/-- The last inode block of an inode with a name. -/
def PorImage.lastDent (img : PorImage) (c : List (BitVec 32)) (ino : ℕ) : Option (BitVec 32) :=
  (c.filter (img.dents ino)).getLast?

lemma lastDent_append (ino : ℕ) :
    img.lastDent (c ++ [b]) ino = if img.dents ino b then some b else img.lastDent c ino := by
  by_cases h : img.dents ino b = true <;> simp [PorImage.lastDent, h]

lemma fsynced_append (ino : ℕ) :
    fsynced img fs (c ++ [b]) ino = (fsynced img fs c ino || img.brings fs ino b) := by
  simp [fsynced]

lemma marks_of_ne {ino : ℕ} (h : (img.node b).ino ≠ ino) : img.marks ino b = false := by
  simp [PorImage.marks, h]

lemma brings_of_not_marks {ino : ℕ} (h : img.marks ino b = false) :
    img.brings fs ino b = false := by
  simp [PorImage.brings, h]

lemma dents_of_not_marks {ino : ℕ} (h : img.marks ino b = false) : img.dents ino b = false := by
  simp [PorImage.dents, h]

/-- An inode block with a name brings the inode. -/
lemma brings_of_dents {ino : ℕ} (h : img.dents ino b = true) : img.brings fs ino b = true := by
  simp only [PorImage.dents, Bool.and_eq_true] at h
  simp [PorImage.brings, h.1.1, h.1.2, h.2]

/-- An inode that was not found has no name. -/
lemma lastDent_of_not_fsynced {ino : ℕ} (h : fsynced img fs c ino = false) :
    img.lastDent c ino = none := by
  rw [PorImage.lastDent, List.getLast?_eq_none_iff, List.filter_eq_nil_iff]
  intro b hb hdent
  have hfound : fsynced img fs c ino = true := List.any_eq_true.mpr ⟨b, hb, brings_of_dents hdent⟩
  rw [h] at hfound
  exact absurd hfound (by simp)

lemma bornAt_append (ino : ℕ) :
    bornAt img fs (c ++ [b]) ino
      = (bornAt img fs c ino).or
        (if !fs.hasInode ino && img.brings fs ino b then some b else none) := by
  cases hex : fs.hasInode ino with
  | true => simp [bornAt, hex]
  | false => cases hbr : img.brings fs ino b <;> simp [bornAt, hex, hbr]

/-- An inode is born once. -/
lemma bornAt_isSome {ino : ℕ} (hex : fs.hasInode ino = false) :
    (bornAt img fs c ino).isSome = fsynced img fs c ino := by
  rw [Bool.eq_iff_iff, bornAt, if_neg (by simp [hex]), fsynced, List.find?_isSome,
    List.any_eq_true]

lemma getFsyncInode_isSome {head : List FsyncInodeEntry} {ino : ℕ} :
    (getFsyncInode head ino).isSome = true ↔ ∃ e ∈ head, e.ino = ino := by
  simp [getFsyncInode, List.find?_isSome]

lemma markEntry_map_ino (head : List FsyncInodeEntry) (n : NodeBlock) :
    (markEntry head n b).map (·.ino) = head.map (·.ino) := by
  rw [markEntry, List.map_map]
  refine List.map_congr_left fun e _ => ?_
  simp only [Function.comp_apply]
  split_ifs <;> rfl

lemma mem_markEntry {head : List FsyncInodeEntry} {n : NodeBlock} {e' : FsyncInodeEntry}
    (h : e' ∈ markEntry head n b) :
    ∃ e ∈ head, e'.ino = e.ino ∧ (e'.blkaddr = if e.ino = n.ino then b else e.blkaddr) ∧
      e'.lastDentry
        = if e.ino = n.ino ∧ (n.isInode && n.dent) = true then b else e.lastDentry := by
  obtain ⟨e, he, rfl⟩ := List.mem_map.mp h
  refine ⟨e, he, ?_⟩
  by_cases heq : e.ino = n.ino <;> simp [heq]

/-- The list holds the inodes that were found fsynced, with the last mark of each. -/
structure ListInv (img : PorImage) (fs₀ : RecoverFs) (found c : List (BitVec 32))
    (head : List FsyncInodeEntry) : Prop where
  nodup : (head.map (·.ino)).Nodup
  named : ∀ e ∈ head, e.lastDentry = (img.lastDent found e.ino).getD 0
  entry : ∀ e ∈ head, fsynced img fs₀ found e.ino = true ∧ img.lastMark c e.ino = some e.blkaddr
  listed : ∀ ino, fsynced img fs₀ found ino = true → c.any (img.marks ino) = true →
    ∃ e ∈ head, e.ino = ino

/-- The state of the first pass after the blocks `pre`. -/
structure FindInv (img : PorImage) (fs₀ : RecoverFs) (links₀ : LinkState)
    (pre : List (BitVec 32)) (st : RecoverState) : Prop where
  visited : st.visited = pre
  links : st.links = foundLinks img fs₀ links₀ pre
  fs_eq : st.fs = { fs₀ with hasInode := st.fs.hasInode }
  hasInode : ∀ ino, st.fs.hasInode ino = (fs₀.hasInode ino || fsynced img fs₀ pre ino)
  list : ListInv img fs₀ pre pre st.inodeList

/-- An inode that was found has a mark. -/
lemma marks_of_fsynced {ino : ℕ} (h : fsynced img fs c ino = true) :
    c.any (img.marks ino) = true := by
  obtain ⟨b, hb, hbr⟩ := List.any_eq_true.mp h
  refine List.any_eq_true.mpr ⟨b, hb, ?_⟩
  simp only [PorImage.brings, Bool.and_eq_true] at hbr
  exact hbr.1

/-- The entry of the marked inode is brought up to date, or is new. -/
lemma ListInv.mark {head : List FsyncInodeEntry} (hnodup : (head.map (·.ino)).Nodup)
    (hmark : (img.node b).fsync = true)
    (hfound : fsynced img fs (c ++ [b]) (img.node b).ino = true)
    (hnamed : ∀ e ∈ head, e.lastDentry = (img.lastDent c e.ino).getD 0)
    (hentry : ∀ e ∈ head, e.ino ≠ (img.node b).ino →
      fsynced img fs c e.ino = true ∧ img.lastMark c e.ino = some e.blkaddr)
    (hlisted : ∀ ino, ino = (img.node b).ino ∨ fsynced img fs c ino = true →
      ∃ e ∈ head, e.ino = ino) :
    ListInv img fs (c ++ [b]) (c ++ [b]) (markEntry head (img.node b) b) where
  nodup := by rwa [markEntry_map_ino]
  named := by
    intro e' he'
    obtain ⟨e, he, hino, -, hdent⟩ := mem_markEntry he'
    rw [hino, hdent, hnamed e he, lastDent_append]
    have hdents : img.dents e.ino b = true ↔
        e.ino = (img.node b).ino ∧ ((img.node b).isInode && (img.node b).dent) = true := by
      simp only [PorImage.dents, PorImage.marks, hmark, Bool.true_and, Bool.and_eq_true, beq_iff_eq]
      exact ⟨fun h => ⟨h.1.1.symm, h.1.2, h.2⟩, fun h => ⟨⟨h.1.symm, h.2.1⟩, h.2.2⟩⟩
    by_cases h : img.dents e.ino b = true
    · rw [if_pos (hdents.mp h), if_pos h, Option.getD_some]
    · rw [if_neg (mt hdents.mpr h), if_neg h]
  entry := by
    intro e' he'
    obtain ⟨e, he, hino, hblk, -⟩ := mem_markEntry he'
    rw [hino, hblk]
    by_cases heq : e.ino = (img.node b).ino
    · rw [if_pos heq, heq]
      exact ⟨hfound, lastMark_append_of_marks (by simp [PorImage.marks, hmark])⟩
    · have hnot : img.marks e.ino b = false := marks_of_ne (Ne.symm heq)
      obtain ⟨hf, hlast⟩ := hentry e he heq
      rw [if_neg heq, lastMark_append_of_not hnot, fsynced_append, hf]
      exact ⟨rfl, hlast⟩
  listed := by
    intro ino hf _
    have hold : ino = (img.node b).ino ∨ fsynced img fs c ino = true := by
      rw [fsynced_append, Bool.or_eq_true] at hf
      rcases hf with hf | hbr
      · exact Or.inr hf
      · simp only [PorImage.brings, PorImage.marks, Bool.and_eq_true, beq_iff_eq] at hbr
        exact Or.inl hbr.1.2.symm
    have hmem : ino ∈ (markEntry head (img.node b) b).map (·.ino) := by
      rw [markEntry_map_ino]
      exact List.mem_map.mpr (hlisted ino hold)
    exact List.mem_map.mp hmem

/-- A block by which no inode is born changes no links. -/
lemma foundLinks_append_of_not
    (h : ∀ ino, fs.hasInode ino = false → fsynced img fs c ino = false →
      img.brings fs ino b = false) :
    foundLinks img fs links (c ++ [b]) = foundLinks img fs links c := by
  have hborn : bornAt img fs (c ++ [b]) = bornAt img fs c := by
    funext ino
    rw [bornAt_append]
    cases hex : fs.hasInode ino with
    | true => simp
    | false =>
        cases hf : fsynced img fs c ino with
        | false => simp [h ino hex hf]
        | true =>
            obtain ⟨x, hx⟩ := Option.isSome_iff_exists.mp ((bornAt_isSome hex).trans hf)
            simp [hx]
  simp only [foundLinks, hborn]

/-- An inode is born. -/
lemma foundLinks_append_of_new (hex : fs.hasInode (img.node b).ino = false)
    (hnf : fsynced img fs c (img.node b).ino = false)
    (hbr : img.brings fs (img.node b).ino b = true) :
    foundLinks img fs links (c ++ [b]) = (foundLinks img fs links c).newInode (img.node b) := by
  have hself : bornAt img fs (c ++ [b]) (img.node b).ino = some b := by
    have hnone : bornAt img fs c (img.node b).ino = none := by
      rw [← Option.not_isSome_iff_eq_none, bornAt_isSome hex, hnf]
      simp
    simp [bornAt_append, hnone, hex, hbr]
  have hother : ∀ ino, ino ≠ (img.node b).ino →
      bornAt img fs (c ++ [b]) ino = bornAt img fs c ino := by
    intro ino hne
    rw [bornAt_append, brings_of_not_marks (marks_of_ne hne.symm)]
    simp
  simp only [foundLinks, LinkState.newInode, LinkState.mk.injEq, true_and, and_true]
  refine ⟨funext fun ino => ?_, funext fun ino => ?_⟩
  · by_cases hino : ino = (img.node b).ino
    · simp [hino, hself]
    · simp [hino, hother ino hino]
  · by_cases hino : ino = (img.node b).ino
    · simp [hino, hself]
    · simp [hino, hother ino hino]

/-- A block that brings no inode leaves everything as it was, if it is no mark of a listed one. -/
lemma FindInv.skip {fs₀ : RecoverFs} {pre : List (BitVec 32)} (h : FindInv img fs₀ links pre st)
    (hbr : ∀ ino, img.brings fs₀ ino b = false)
    (hmark : ∀ e ∈ st.inodeList, img.marks e.ino b = false) :
    FindInv img fs₀ links (pre ++ [b]) { st with visited := st.visited ++ [b] } where
  visited := by rw [h.visited]
  links := h.links.trans (foundLinks_append_of_not fun ino _ _ => hbr ino).symm
  fs_eq := h.fs_eq
  hasInode := by
    intro ino
    rw [fsynced_append, hbr, Bool.or_false]
    exact h.hasInode ino
  list := by
    refine ⟨h.list.nodup, fun e he => ?_, fun e he => ?_, fun ino hf _ => ?_⟩
    · rw [lastDent_append, dents_of_not_marks (hmark e he)]
      exact h.list.named e he
    · rw [fsynced_append, hbr, Bool.or_false, lastMark_append_of_not (hmark e he)]
      exact h.list.entry e he
    · rw [fsynced_append, hbr, Bool.or_false] at hf
      exact h.list.listed ino hf (marks_of_fsynced hf)

/-- A new entry. -/
lemma FindInv.add {fs₀ : RecoverFs} {pre : List (BitVec 32)} {has : ℕ → Bool} {links' : LinkState}
    (h : FindInv img fs₀ links pre st) (hmark : (img.node b).fsync = true)
    (hnew : ¬ ∃ e ∈ st.inodeList, e.ino = (img.node b).ino)
    (hnf : fsynced img fs₀ pre (img.node b).ino = false)
    (hbr : img.brings fs₀ (img.node b).ino b = true)
    (hlinks : links' = foundLinks img fs₀ links (pre ++ [b]))
    (hhas : ∀ ino, has ino = (fs₀.hasInode ino || fsynced img fs₀ (pre ++ [b]) ino)) :
    FindInv img fs₀ links (pre ++ [b])
      ⟨{ fs₀ with hasInode := has }, links',
        markEntry (st.inodeList ++ [⟨(img.node b).ino, 0, 0⟩]) (img.node b) b,
        st.visited ++ [b]⟩ where
  visited := by rw [h.visited]
  links := hlinks
  fs_eq := rfl
  hasInode := hhas
  list := by
    refine ListInv.mark ?_ hmark (by rw [fsynced_append, hbr, Bool.or_true]) ?_ ?_ ?_
    · rw [List.map_append, List.nodup_append]
      refine ⟨h.list.nodup, by simp, ?_⟩
      intro x hx y hy
      obtain ⟨e, he, rfl⟩ := List.mem_map.mp hx
      simp only [List.map_cons, List.map_nil, List.mem_singleton] at hy
      rintro rfl
      exact hnew ⟨e, he, hy⟩
    · intro e he
      rcases List.mem_append.mp he with he | he
      · exact h.list.named e he
      · obtain rfl := List.mem_singleton.mp he
        rw [lastDent_of_not_fsynced hnf, Option.getD_none]
    · intro e he hne
      rcases List.mem_append.mp he with he | he
      · exact h.list.entry e he
      · obtain rfl := List.mem_singleton.mp he
        exact absurd rfl hne
    · rintro ino (rfl | hf)
      · exact ⟨⟨(img.node b).ino, 0, 0⟩, by simp, rfl⟩
      · obtain ⟨e, he, hino⟩ := h.list.listed ino hf (marks_of_fsynced hf)
        exact ⟨e, List.mem_append_left _ he, hino⟩

/-- Other inodes are not concerned by a block. -/
lemma fsynced_append_of_ne {ino : ℕ} (h : (img.node b).ino ≠ ino) :
    fsynced img fs (c ++ [b]) ino = fsynced img fs c ino := by
  rw [fsynced_append, brings_of_not_marks (marks_of_ne h), Bool.or_false]

/-- The inode has an entry already. -/
lemma FindInv.again {fs₀ : RecoverFs} {pre : List (BitVec 32)} (h : FindInv img fs₀ links pre st)
    (hmark : (img.node b).fsync = true)
    (hlisted : ∃ e ∈ st.inodeList, e.ino = (img.node b).ino) :
    FindInv img fs₀ links (pre ++ [b])
      { st with
        inodeList := markEntry st.inodeList (img.node b) b
        visited := st.visited ++ [b] } := by
  obtain ⟨e₀, he₀, hino₀⟩ := hlisted
  have hfound : fsynced img fs₀ pre (img.node b).ino = true := hino₀ ▸ (h.list.entry e₀ he₀).1
  refine ⟨by rw [h.visited], ?_, h.fs_eq, fun ino => ?_, ?_⟩
  · refine h.links.trans (foundLinks_append_of_not fun ino _ hnf => ?_).symm
    refine brings_of_not_marks (marks_of_ne ?_)
    rintro rfl
    rw [hfound] at hnf
    exact absurd hnf (by simp)
  · by_cases hino : (img.node b).ino = ino
    · rw [h.hasInode, ← hino, fsynced_append, hfound, Bool.true_or]
    · rw [h.hasInode, fsynced_append_of_ne hino]
  · refine ListInv.mark h.list.nodup hmark (by rw [fsynced_append, hfound, Bool.true_or])
      h.list.named (fun e he _ => h.list.entry e he) ?_
    rintro ino (rfl | hf)
    · exact ⟨e₀, he₀, hino₀⟩
    · exact h.list.listed ino hf (marks_of_fsynced hf)

/-- A new inode page of an inode that does not exist changes nothing but that and its links. -/
lemma recoverInodePage_eq {fs₀ : RecoverFs} {n : NodeBlock} {p : RecoverFs × LinkState}
    (hfs : Checkpointed fs₀ links) (heq : fs = { fs₀ with hasInode := fs.hasInode })
    (habsent : fs₀.hasInode n.ino = false) {x : LinkState}
    (h : recoverInodePage fs x n = .ok p) :
    p = ({ fs₀ with hasInode := Function.update fs.hasInode n.ino true }, x.newInode n) := by
  have haddr : fs.addr = fs₀.addr := by rw [heq]
  have hvalid : fs.valid = fs₀.valid := by rw [heq]
  have hsum : fs.summary = fs₀.summary := by rw [heq]
  have hinline : fs.hasInlineData = fs₀.hasInlineData := by rw [heq]
  unfold recoverInodePage at h
  split_ifs at h
  obtain rfl := Except.ok.inj h
  have hnull : (fun s : Slot => if s.ino = n.ino then nullAddr else fs₀.addr s) = fs₀.addr := by
    funext s
    split_ifs with hs
    · exact (hfs.absent_null s (hs ▸ habsent)).symm
    · rfl
  have hflag : Function.update fs₀.hasInlineData n.ino false = fs₀.hasInlineData := by
    rw [← hfs.absent_inline n.ino habsent, Function.update_eq_self]
  simp only [haddr, hvalid, hsum, hinline, hnull, hflag]

/-- Everything that a block can do in the first pass. -/
inductive FindMove (img : PorImage) (st : RecoverState) (b : BitVec 32) : RecoverState → Prop
  | unmarked (hmark : (img.node b).fsync = false) :
      FindMove img st b { st with visited := st.visited ++ [b] }
  | again (hmark : (img.node b).fsync = true)
      (hlisted : ∃ e ∈ st.inodeList, e.ino = (img.node b).ino) :
      FindMove img st b { st with
        inodeList := markEntry st.inodeList (img.node b) b
        visited := st.visited ++ [b] }
  | absent (hmark : (img.node b).fsync = true)
      (hnew : ¬ ∃ e ∈ st.inodeList, e.ino = (img.node b).ino)
      (hdf : ((img.node b).isInode && (img.node b).dent) = false)
      (hex : st.fs.hasInode (img.node b).ino = false) :
      FindMove img st b { st with visited := st.visited ++ [b] }
  | found (hmark : (img.node b).fsync = true)
      (hnew : ¬ ∃ e ∈ st.inodeList, e.ino = (img.node b).ino)
      (hdf : ((img.node b).isInode && (img.node b).dent) = false)
      (hex : st.fs.hasInode (img.node b).ino = true) :
      FindMove img st b { st with
        inodeList := markEntry (st.inodeList ++ [⟨(img.node b).ino, 0, 0⟩]) (img.node b) b
        visited := st.visited ++ [b] }
  | born (hmark : (img.node b).fsync = true)
      (hnew : ¬ ∃ e ∈ st.inodeList, e.ino = (img.node b).ino)
      (hdf : ((img.node b).isInode && (img.node b).dent) = true)
      (hex : st.fs.hasInode (img.node b).ino = false) (p : RecoverFs × LinkState)
      (hpage : recoverInodePage st.fs st.links (img.node b) = .ok p) :
      FindMove img st b
        ⟨p.1, p.2, markEntry (st.inodeList ++ [⟨(img.node b).ino, 0, 0⟩]) (img.node b) b,
          st.visited ++ [b]⟩

lemma recoverInodePage_hasInode {n : NodeBlock} {p : RecoverFs × LinkState} {x : LinkState}
    (h : recoverInodePage fs x n = .ok p) :
    fs.hasInode n.ino = false ∧ p.1.hasInode n.ino = true := by
  unfold recoverInodePage at h
  split_ifs at h with hex
  obtain rfl := Except.ok.inj h
  exact ⟨by simpa using hex, Function.update_self _ _ _⟩

lemma findMove_of_step (hstep : findDnode img env false st b = .ok st') :
    FindMove img st b st' := by
  unfold findDnode at hstep
  cases hmark : (img.node b).fsync with
  | false =>
      simp only [hmark, Bool.not_false, if_true, Except.ok.injEq] at hstep
      exact hstep ▸ .unmarked hmark
  | true =>
      cases hlisted : (getFsyncInode st.inodeList (img.node b).ino).isSome with
      | true =>
          simp only [hmark, hlisted, Bool.not_true, Bool.false_eq_true, if_false, if_true,
            Except.ok.injEq] at hstep
          exact hstep ▸ .again hmark (getFsyncInode_isSome.mp hlisted)
      | false =>
          have hnew : ¬ ∃ e ∈ st.inodeList, e.ino = (img.node b).ino := by
            rw [← getFsyncInode_isSome, hlisted]
            simp
          simp only [hmark, hlisted, Bool.not_true, Bool.false_eq_true, if_false, Bool.not_false,
            Bool.true_and] at hstep
          cases hdf : (img.node b).isInode && (img.node b).dent with
          | true =>
              simp only [hdf, if_true] at hstep
              cases hpage : recoverInodePage st.fs st.links (img.node b) with
              | error e => simp [hpage, bind, Except.bind] at hstep
              | ok p =>
                  obtain ⟨hex, hpex⟩ := recoverInodePage_hasInode hpage
                  cases hadd : env.addInode (img.node b).ino with
                  | false => simp [hpage, bind, Except.bind, addFsyncInode, hpex, hadd] at hstep
                  | true =>
                      simp only [hpage, bind, Except.bind, addFsyncInode, hadd, hpex,
                        Bool.not_true, Bool.false_eq_true, if_false, if_true, pure, Except.pure,
                        Except.ok.injEq] at hstep
                      exact hstep ▸ .born hmark hnew hdf hex p hpage
          | false =>
              simp only [hdf, Bool.false_eq_true, if_false, pure_bind] at hstep
              cases hex : st.fs.hasInode (img.node b).ino with
              | false =>
                  simp only [addFsyncInode, hex, Bool.not_false, if_true, pure, Except.pure,
                    Except.ok.injEq] at hstep
                  exact hstep ▸ .absent hmark hnew hdf hex
              | true =>
                  cases hadd : env.addInode (img.node b).ino with
                  | false => simp [addFsyncInode, hex, hadd, throw, throwThe,
                      MonadExceptOf.throw] at hstep
                  | true =>
                      simp only [addFsyncInode, hex, hadd, Bool.not_true, Bool.false_eq_true,
                        if_false, if_true, pure, Except.pure, Except.ok.injEq] at hstep
                      exact hstep ▸ .found hmark hnew hdf hex

/-- An inode that is not on the list has not been found. -/
lemma FindInv.not_fsynced {fs₀ : RecoverFs} {pre : List (BitVec 32)}
    (h : FindInv img fs₀ links pre st) {ino : ℕ} (hnew : ¬ ∃ e ∈ st.inodeList, e.ino = ino) :
    fsynced img fs₀ pre ino = false ∧ st.fs.hasInode ino = fs₀.hasInode ino := by
  have hnf : fsynced img fs₀ pre ino = false := by
    rw [Bool.eq_false_iff]
    exact fun hf => hnew (h.list.listed ino hf (marks_of_fsynced hf))
  exact ⟨hnf, by rw [h.hasInode, hnf, Bool.or_false]⟩

/-- **One block of the first pass.** -/
lemma FindInv.step {fs₀ : RecoverFs} {pre : List (BitVec 32)} (hfs : Checkpointed fs₀ links)
    (h : FindInv img fs₀ links pre st) (hstep : findDnode img env false st b = .ok st') :
    FindInv img fs₀ links (pre ++ [b]) st' := by
  cases findMove_of_step hstep with
  | unmarked hmark =>
      have hnot : ∀ ino, img.marks ino b = false := by simp [PorImage.marks, hmark]
      exact h.skip (fun ino => brings_of_not_marks (hnot ino)) fun e _ => hnot e.ino
  | again hmark hlisted => exact h.again hmark hlisted
  | absent hmark hnew hdf hex =>
      rw [(h.not_fsynced hnew).2] at hex
      refine h.skip (fun ino => ?_) fun e he => marks_of_ne fun heq => hnew ⟨e, he, heq.symm⟩
      by_cases hino : (img.node b).ino = ino
      · simp [← hino, PorImage.brings, hex, hdf]
      · exact brings_of_not_marks (marks_of_ne hino)
  | found hmark hnew _ hex =>
      obtain ⟨hnf, hhas⟩ := h.not_fsynced hnew
      have hex₀ : fs₀.hasInode (img.node b).ino = true := hhas ▸ hex
      have hbr : img.brings fs₀ (img.node b).ino b = true := by
        simp [PorImage.brings, PorImage.marks, hmark, hex₀]
      rw [h.fs_eq]
      refine h.add hmark hnew hnf hbr ?_ fun ino => ?_
      · refine h.links.trans (foundLinks_append_of_not fun ino hno _ => ?_).symm
        refine brings_of_not_marks (marks_of_ne ?_)
        rintro rfl
        rw [hex₀] at hno
        exact absurd hno (by simp)
      · by_cases hino : (img.node b).ino = ino
        · simp [← hino, hex, hex₀]
        · rw [h.hasInode, fsynced_append_of_ne hino]
  | born hmark hnew hdf hex p hpage =>
      obtain ⟨hnf, hhas⟩ := h.not_fsynced hnew
      have habsent : fs₀.hasInode (img.node b).ino = false := hhas ▸ hex
      have hbr : img.brings fs₀ (img.node b).ino b = true := by
        simp [PorImage.brings, PorImage.marks, hmark, hdf]
      obtain rfl := recoverInodePage_eq hfs h.fs_eq habsent hpage
      refine h.add hmark hnew hnf hbr ?_ fun ino => ?_
      · rw [h.links, foundLinks_append_of_new habsent hnf hbr]
      · by_cases hino : (img.node b).ino = ino
        · simp [← hino, fsynced_append, hbr]
        · rw [Function.update_of_ne (Ne.symm hino), h.hasInode, fsynced_append_of_ne hino]

/-- **The first pass** visits the chain up to the first block that is not accepted, and lists the
inodes that were fsynced there. -/
lemma findFsyncDnodes_inv {fs₀ : RecoverFs} {fuel : ℕ} {pre : List (BitVec 32)}
    (hfs : Checkpointed fs₀ links) (hchain : OnDiskChain l img blkaddr c)
    (h : FindInv img fs₀ links pre st)
    (hrun : findFsyncDnodes l img env false fuel st blkaddr = .ok st') :
    FindInv img fs₀ links (pre ++ c.takeWhile fun b => f2fsIsValidPorBlkaddr l b.toNat) st' ∧
      (c.takeWhile fun b => f2fsIsValidPorBlkaddr l b.toNat).length ≤ fuel := by
  induction c generalizing blkaddr fuel st pre with
  | nil =>
      unfold findFsyncDnodes at hrun
      have hstop : st' = st := by
        cases hacc : f2fsIsValidPorBlkaddr l blkaddr.toNat with
        | false => simpa [hacc] using hrun.symm
        | true => simpa [hacc, OnDiskChain.ends hchain hacc] using hrun.symm
      subst hstop
      simpa using h
  | cons b rest ih =>
      obtain ⟨rfl, hin, hrest⟩ := hchain
      unfold findFsyncDnodes at hrun
      cases hacc : f2fsIsValidPorBlkaddr l b.toNat with
      | false =>
          obtain rfl : st' = st := by simpa [hacc] using hrun.symm
          simpa [hacc] using h
      | true =>
          simp only [hacc, hin.2.2, Bool.not_true, Bool.false_eq_true, if_false] at hrun
          cases hstep : findDnode img env false st b with
          | error e => simp [hstep] at hrun
          | ok st₁ =>
              cases fuel with
              | zero => simp [hstep] at hrun
              | succ fuel =>
                  simp only [hstep] at hrun
                  split_ifs at hrun
                  obtain ⟨hinv, hlen⟩ := ih hrest (h.step hfs hstep) hrun
                  rw [List.takeWhile_cons, hacc, if_pos rfl]
                  refine ⟨by simpa using hinv, ?_⟩
                  simpa using hlen

/-! ## The second pass replays what they recorded -/

/-- The operations lead from one state to the other, and each of them is ready when it comes. -/
structure Replays (l : Layout) (fs : RecoverFs) (ops : List ReplayOp) (fs' : RecoverFs) : Prop where
  run : exec (replayStep l) fs ops = some fs'
  ready : StepsMeet (replayStep l) ReplayReady fs ops

lemma Replays.nil : Replays l fs [] fs := ⟨rfl, trivial⟩

lemma Replays.append {ops ops' : List ReplayOp} {fs₁ : RecoverFs} (h : Replays l fs ops fs₁)
    (h' : Replays l fs₁ ops' fs') : Replays l fs (ops ++ ops') fs' where
  run := exec_append.mpr ⟨fs₁, h.run, h'.run⟩
  ready := by
    refine stepsMeet_append h.ready fun fs₂ hfs₂ => ?_
    obtain rfl : fs₁ = fs₂ := Option.some.inj (h.run.symm.trans hfs₂)
    exact h'.ready

lemma Replays.ok {ops : List ReplayOp} (h : Replays l fs ops fs') (hfs : FsOk fs) : FsOk fs' :=
  replay_ok hfs h.ready h.run

/-- `iput` carries out an eviction, if there is one. -/
lemma evictOps_replays (henv : env.PagesRead) (hfs : FsOk fs) (held : ℕ → Bool)
    (links : LinkState) (ino : ℕ) :
    Replays l fs (evictOps held links ino) (iput env held links fs ino) := by
  unfold evictOps iput
  by_cases h : links.nlink ino = 0 ∧ held ino = false
  · rw [if_pos h, if_pos ⟨h.1, h.2, henv.evict ino⟩]
    exact ⟨rfl, ⟨hfs, fun _ _ _ _ heq => absurd heq (by simp)⟩, fun _ _ => trivial⟩
  · rw [if_neg h, if_neg fun h' => h ⟨h'.1, h'.2.1⟩]
    exact .nil

lemma destroy_replays (henv : env.PagesRead) (hfs : FsOk fs) (held : ℕ → Bool)
    (links : LinkState) (inos : List ℕ) :
    Replays l fs (inos.flatMap (evictOps held links)) (inos.foldl (iput env held links) fs) := by
  induction inos generalizing fs with
  | nil => exact .nil
  | cons ino inos ih =>
      rw [List.flatMap_cons, List.foldl_cons]
      have hone := evictOps_replays (l := l) henv hfs held links ino
      exact hone.append (ih (hone.ok hfs))

lemma blockIndices_ready {ino : ℕ} {ops : List ReplayOp} (hfs : FsOk fs)
    (hflag : fs.hasInlineData ino = false)
    (hops : ∀ op ∈ ops, ∃ s dest reserve prev, op = .index s dest reserve prev ∧ s.ino = ino ∧
      prev ≠ .missed) : StepsMeet (replayStep l) ReplayReady fs ops := by
  induction ops generalizing fs with
  | nil => trivial
  | cons op ops ih =>
      obtain ⟨s, dest, reserve, prev, rfl, rfl, hprev⟩ := hops op (by simp)
      have hready : ReplayReady fs (.index s dest reserve prev) := by
        refine ⟨hfs, fun s' dest' reserve' prev' heq => ?_⟩
        obtain ⟨rfl, rfl, rfl, rfl⟩ := ReplayOp.index.inj heq
        exact ⟨hflag, hprev⟩
      refine ⟨hready, fun fs₁ hstep => ih (replayStep_ok hready hstep) ?_ ?_⟩
      · rw [(recoverIndex_effect hfs hflag hprev hstep).hasInlineData, hflag]
      · exact fun op hop => hops op (by simp [hop])

/-- What becomes of inline data depends on the block only. -/
lemma recoverInlineData_eq (henv : env.PagesRead) (hfs : FsOk fs) (n : NodeBlock) :
    recoverInlineData env fs n b =
      if n.isInode && n.inlineData then
        (setInlineData (truncateBlocks fs n.ino) n.ino true, true)
      else (setInlineData fs n.ino false, false) := by
  unfold recoverInlineData
  cases hflag : fs.hasInlineData n.ino with
  | true =>
      cases hin : n.isInode && n.inlineData with
      | true => simp [hin, hfs.truncateBlocks_eq_self hflag]
      | false => simp [hin]
  | false =>
      have hself : setInlineData fs n.ino false = fs := by
        rw [setInlineData, ← hflag, Function.update_eq_self]
      cases hin : n.isInode && n.inlineData with
      | true => simp [henv.truncateBlocks b]
      | false => simp [hself]

/-- **One node block**: `do_recover_data` carries out what the block records. -/
lemma doRecoverData_replays (henv : env.PagesRead) (hfs : FsOk fs)
    (h : doRecoverData l img env fs b = some fs') : Replays l fs (blockOps img env b) fs' := by
  unfold doRecoverData at h
  unfold blockOps
  cases hx : !(img.node b).isInode && (img.node b).hasXattrBlock with
  | true =>
      simp only [hx, if_true] at h ⊢
      split_ifs at h
      exact ⟨h, trivial⟩
  | false =>
      simp only [hx, Bool.false_eq_true, if_false, recoverInlineData_eq henv hfs] at h ⊢
      cases hin : (img.node b).isInode && (img.node b).inlineData with
      | true =>
          simp only [hin, if_true] at h ⊢
          exact ⟨h, ⟨hfs, fun _ _ _ _ heq => absurd heq (by simp)⟩, fun _ _ => trivial⟩
      | false =>
          simp only [hin, Bool.false_eq_true, if_false] at h ⊢
          obtain ⟨-, h⟩ := Option.ite_none_right_eq_some.mp h
          have hready : ReplayReady fs (.removeInline (img.node b).ino) :=
            ⟨hfs, fun _ _ _ _ heq => absurd heq (by simp)⟩
          constructor
          · refine exec_cons.mpr ⟨setInlineData fs (img.node b).ino false, rfl, ?_⟩
            rw [exec_map]
            exact h
          · refine ⟨hready, fun fs₁ hstep => ?_⟩
            obtain rfl := Option.some.inj hstep
            have hflag : (setInlineData fs (img.node b).ino false).hasInlineData (img.node b).ino
                = false := by simp [setInlineData]
            refine blockIndices_ready (hfs.removeInline _) hflag fun op hop => ?_
            obtain ⟨i, -, rfl⟩ := List.mem_map.mp hop
            exact ⟨_, _, _, _, rfl, rfl, henv.prev b i⟩

lemma lastMark_cons (ino : ℕ) :
    img.lastMark (b :: c) ino
      = (img.lastMark c ino).or (if img.marks ino b then some b else none) := by
  cases hm : img.marks ino b with
  | false => simp [PorImage.lastMark, hm]
  | true =>
      simp only [PorImage.lastMark, hm, List.filter_cons_of_pos, if_true, List.getLast?_cons]
      cases (List.filter (img.marks ino) c).getLast? <;> rfl

lemma mem_of_lastMark {ino : ℕ} (h : img.lastMark c ino = some b) : b ∈ c :=
  (List.mem_filter.mp (List.mem_of_getLast? h)).1

/-- A block says nothing about the entries of other inodes. -/
lemma ListInv.entry_tail {fs₀ : RecoverFs} {found : List (BitVec 32)}
    {head : List FsyncInodeEntry} (h : ListInv img fs₀ found (b :: c) head) {e : FsyncInodeEntry}
    (he : e ∈ head) (hne : e.ino ≠ (img.node b).ino) :
    fsynced img fs₀ found e.ino = true ∧ img.lastMark c e.ino = some e.blkaddr := by
  obtain ⟨hf, hlast⟩ := h.entry e he
  refine ⟨hf, ?_⟩
  rw [lastMark_cons, marks_of_ne hne.symm] at hlast
  simpa using hlast

/-- A block of an inode that is not on the list is passed over, and has to be. -/
lemma ListInv.pass {fs₀ : RecoverFs} {found : List (BitVec 32)} {head : List FsyncInodeEntry}
    (h : ListInv img fs₀ found (b :: c) head)
    (hnone : getFsyncInode head (img.node b).ino = none) :
    ListInv img fs₀ found c head ∧
      (fsynced img fs₀ found (img.node b).ino &&
        (b :: c).any (img.marks (img.node b).ino)) = false := by
  have hnot : ¬ ∃ e ∈ head, e.ino = (img.node b).ino := by
    rw [← getFsyncInode_isSome, hnone]
    simp
  refine ⟨⟨h.nodup, h.named, fun e he => ?_, fun ino hf hm => ?_⟩, ?_⟩
  · exact h.entry_tail he fun heq => hnot ⟨e, he, heq⟩
  · exact h.listed ino hf (by rw [List.any_cons, hm, Bool.or_true])
  · rw [Bool.eq_false_iff]
    intro hboth
    rw [Bool.and_eq_true] at hboth
    exact hnot (h.listed _ hboth.1 hboth.2)

lemma delFsyncInode_map_ino (head : List FsyncInodeEntry) (ino : ℕ) :
    (delFsyncInode head ino).map (·.ino) = (head.map (·.ino)).erase ino := by
  rw [delFsyncInode, List.erase_eq_eraseP', List.eraseP_map]
  rfl

/-- The entry is dropped at the last mark of its inode, and not before. -/
lemma ListInv.next {fs₀ : RecoverFs} {found : List (BitVec 32)} {head : List FsyncInodeEntry}
    {e : FsyncInodeEntry} (h : ListInv img fs₀ found (b :: c) head) (hb : b ∉ c)
    (hsome : getFsyncInode head (img.node b).ino = some e) :
    ListInv img fs₀ found c
        (if e.blkaddr = b then delFsyncInode head (img.node b).ino else head) ∧
      (fsynced img fs₀ found (img.node b).ino &&
        (b :: c).any (img.marks (img.node b).ino)) = true := by
  have he : e ∈ head := List.mem_of_find?_eq_some hsome
  have hino : e.ino = (img.node b).ino := by simpa using List.find?_some hsome
  obtain ⟨hf, hlast⟩ := h.entry e he
  have hmem : e.blkaddr ∈ (b :: c).filter (img.marks e.ino) := List.mem_of_getLast? hlast
  have hany : (b :: c).any (img.marks (img.node b).ino) = true := by
    rw [← hino]
    exact List.any_eq_true.mpr ⟨e.blkaddr, List.mem_filter.mp hmem⟩
  refine ⟨?_, by rw [← hino, hf, hino, hany]; rfl⟩
  rw [lastMark_cons] at hlast
  split_ifs with hblk
  · -- Another mark further on would be the last one.
    have hdone : img.lastMark c e.ino = none := by
      cases hc : img.lastMark c e.ino with
      | none => rfl
      | some x =>
          rw [hc, Option.some_or, Option.some.injEq] at hlast
          exact absurd (mem_of_lastMark hc) (hlast ▸ hblk ▸ hb)
    refine ⟨?_, fun e' he' => h.named e' (List.mem_of_mem_eraseP he'), fun e' he' => ?_,
      fun ino hf' hm => ?_⟩
    · rw [delFsyncInode_map_ino]
      exact h.nodup.erase _
    · have hmem' : e'.ino ∈ (head.map (·.ino)).erase (img.node b).ino := by
        rw [← delFsyncInode_map_ino]
        exact List.mem_map_of_mem he'
      exact h.entry_tail (List.mem_of_mem_eraseP he') (h.nodup.mem_erase_iff.mp hmem').1
    · have hne : ino ≠ (img.node b).ino := by
        rintro rfl
        obtain ⟨x, hx, hmx⟩ := List.any_eq_true.mp hm
        rw [hino, PorImage.lastMark, List.getLast?_eq_none_iff, List.filter_eq_nil_iff] at hdone
        exact hdone x hx hmx
      obtain ⟨e', he', rfl⟩ := h.listed ino hf' (by rw [List.any_cons, hm, Bool.or_true])
      have hmem' : e'.ino ∈ (delFsyncInode head (img.node b).ino).map (·.ino) := by
        rw [delFsyncInode_map_ino]
        exact h.nodup.mem_erase_iff.mpr ⟨hne, List.mem_map_of_mem he'⟩
      exact List.mem_map.mp hmem'
  · refine ⟨h.nodup, h.named, fun e' he' => ?_, fun ino hf' hm => ?_⟩
    · by_cases heq : e'.ino = (img.node b).ino
      · obtain rfl : e' = e := List.inj_on_of_nodup_map h.nodup he' he (heq.trans hino.symm)
        refine ⟨hf, ?_⟩
        cases hc : img.lastMark c e'.ino with
        | some x => simpa [hc] using hlast
        | none =>
            rw [hc, Option.none_or] at hlast
            split_ifs at hlast
            exact absurd (Option.some.inj hlast).symm hblk
      · exact h.entry_tail he' heq
    · exact h.listed ino hf' (by rw [List.any_cons, hm, Bool.or_true])

/-- The list holds what is still to be recovered. -/
lemma ListInv.isListed {fs₀ : RecoverFs} {found : List (BitVec 32)} {head : List FsyncInodeEntry}
    (h : ListInv img fs₀ found c head) (ino : ℕ) :
    (getFsyncInode head ino).isSome
      = (fsynced img fs₀ found ino && c.any (img.marks ino)) := by
  rw [Bool.eq_iff_iff, getFsyncInode_isSome, Bool.and_eq_true]
  constructor
  · rintro ⟨e, he, rfl⟩
    obtain ⟨hf, hlast⟩ := h.entry e he
    have hmem := List.mem_filter.mp (List.mem_of_getLast? hlast)
    exact ⟨hf, List.any_eq_true.mpr ⟨_, hmem⟩⟩
  · rintro ⟨hf, hm⟩
    exact h.listed ino hf hm

/-- The name counts in the last block that has one. -/
lemma lastDent_eq_iff {found : List (BitVec 32)} (hnodup : found.Nodup)
    (hsuffix : b :: c <:+ found) (hzero : b ≠ 0) (ino : ℕ) :
    (img.lastDent found ino).getD 0 = b ↔ (img.dents ino b && !c.any (img.dents ino)) = true := by
  obtain ⟨pre, rfl⟩ := hsuffix
  obtain ⟨-, hrest, hpre⟩ := List.nodup_append.mp hnodup
  have hsplit : img.lastDent (pre ++ b :: c) ino
      = ((img.lastDent c ino).or (if img.dents ino b then some b else none)).or
        (img.lastDent pre ino) := by
    have hcons : b :: c = [b] ++ c := rfl
    rw [hcons]
    simp only [PorImage.lastDent, List.filter_append, List.getLast?_append]
    cases h : img.dents ino b <;> simp [h]
  rw [hsplit, Bool.and_eq_true, Bool.not_eq_true']
  cases hlast : img.lastDent c ino with
  | some x =>
      have hx := List.mem_filter.mp (List.mem_of_getLast? hlast)
      have hne : x ≠ b := by
        rintro rfl
        exact (List.nodup_cons.mp hrest).1 hx.1
      have hany : c.any (img.dents ino) = true := List.any_eq_true.mpr ⟨x, hx⟩
      simp [hne, hany]
  | none =>
      have hany : c.any (img.dents ino) = false := by
        rw [PorImage.lastDent, List.getLast?_eq_none_iff, List.filter_eq_nil_iff] at hlast
        rw [List.any_eq_false]
        exact hlast
      cases hdent : img.dents ino b with
      | true => simp [hany]
      | false =>
          cases hbefore : img.lastDent pre ino with
          | none => simpa using fun heq => hzero heq.symm
          | some x =>
              have hx := (List.mem_filter.mp (List.mem_of_getLast? hbefore)).1
              have hne : x ≠ b := hpre x hx b List.mem_cons_self
              simp [hne]

/-- **A name**: another inode that has it loses it, and may be evicted. -/
lemma recoverDentry_replays {isFsynced : ℕ → Bool} (henv : env.PagesRead) (hfs : FsOk st.fs)
    (hlisted : ∀ ino, (getFsyncInode st.inodeList ino).isSome
      = (isFsynced ino && c.any (img.marks ino)))
    (h : recoverDentry img env st b = some st') :
    st'.links = (dentryOps img env isFsynced c st.links (img.node b)).1 ∧
      st'.inodeList = st.inodeList ∧
      Replays l st.fs (dentryOps img env isFsynced c st.links (img.node b)).2 st'.fs := by
  unfold recoverDentry at h
  unfold dentryOps
  dsimp only at h ⊢
  split_ifs at h
  cases hdent : (st.links.addDir (img.node b).pino).dentry (img.node b).pino (img.node b).name with
  | none =>
      simp only [hdent, Option.some.injEq] at h
      subst h
      exact ⟨rfl, rfl, .nil⟩
  | some e =>
      simp only [hdent] at h ⊢
      by_cases hown : e = (img.node b).ino
      · simp only [hown, if_true, Option.some.injEq] at h ⊢
        subst h
        exact ⟨rfl, rfl, .nil⟩
      · simp only [hown, if_false] at h ⊢
        split_ifs at h
        obtain rfl := Option.some.inj h
        refine ⟨rfl, rfl, ?_⟩
        have hheld : ∀ links, ({ st with links := links } : RecoverState).holds env
            = heldUntil img env isFsynced c links := by
          intro links
          funext ino
          simp only [RecoverState.holds, heldUntil, hlisted]
        rw [hheld]
        exact evictOps_replays henv hfs _ _ e

/-- The name of a block counts when it is the entry's last one. -/
lemma recoverName_replays {isFsynced : ℕ → Bool} {e : FsyncInodeEntry} {dents : Bool}
    (henv : env.PagesRead) (hfs : FsOk st.fs)
    (hlisted : ∀ ino, (getFsyncInode st.inodeList ino).isSome
      = (isFsynced ino && c.any (img.marks ino)))
    (hdent : e.lastDentry = b ↔ dents = true)
    (h : (if e.lastDentry = b then recoverDentry img env st b else some st) = some st') :
    ∃ r, (if dents then dentryOps img env isFsynced c st.links (img.node b)
        else (st.links, [])) = r ∧
      st'.links = r.1 ∧ st'.inodeList = st.inodeList ∧ Replays l st.fs r.2 st'.fs := by
  by_cases hlast : e.lastDentry = b
  · rw [if_pos hlast] at h
    exact ⟨_, if_pos (hdent.mp hlast), recoverDentry_replays henv hfs hlisted h⟩
  · rw [if_neg hlast, Option.some.injEq] at h
    subst h
    exact ⟨_, if_neg (mt hdent.mpr hlast), rfl, rfl, .nil⟩

/-- **One block of the second pass.** -/
lemma recoverDnode_replays {fs₀ : RecoverFs} {found : List (BitVec 32)} (henv : env.PagesRead)
    (hfs : FsOk st.fs) (hnodup : found.Nodup) (hsuffix : b :: c <:+ found) (hzero : b ≠ 0)
    (hlist : ListInv img fs₀ found (b :: c) st.inodeList)
    (hstep : recoverDnode l img env st b = .ok st') :
    st'.visited = st.visited ++ [b] ∧ ListInv img fs₀ found c st'.inodeList ∧
      ∃ r, (if fsynced img fs₀ found (img.node b).ino &&
          (b :: c).any (img.marks (img.node b).ino) then
            dnodeOps img env (fsynced img fs₀ found) st.links b c else (st.links, [])) = r ∧
        st'.links = r.1 ∧ Replays l st.fs r.2 st'.fs := by
  have hb : b ∉ c := (List.nodup_cons.mp (hnodup.sublist hsuffix.sublist)).1
  unfold recoverDnode at hstep
  cases hget : getFsyncInode st.inodeList (img.node b).ino with
  | none =>
      obtain rfl : st' = { st with visited := st.visited ++ [b] } := by
        simpa [hget] using hstep.symm
      obtain ⟨hlist', hskip⟩ := hlist.pass hget
      exact ⟨rfl, hlist', (st.links, []), by rw [hskip]; rfl, rfl, .nil⟩
  | some e =>
      obtain ⟨hlist', hdo⟩ := hlist.next hb hget
      simp only [hget] at hstep
      have hino : e.ino = (img.node b).ino := by simpa using List.find?_some hget
      have hdent : e.lastDentry = b ↔ (img.dents (img.node b).ino b
          && !c.any (img.dents (img.node b).ino)) = true := by
        rw [hlist.named e (List.mem_of_find?_eq_some hget), hino]
        exact lastDent_eq_iff hnodup hsuffix hzero _
      set st₀ : RecoverState := { st with links := st.links.recoverInode (img.node b) } with hst₀
      cases hname : (if e.lastDentry = b then recoverDentry img env st₀ b else some st₀) with
      | none => simp [hname] at hstep
      | some st₁ =>
          simp only [hname] at hstep
          have hfs₀ : FsOk st₀.fs := hfs
          obtain ⟨r, hr, hlinks, hlist₁, hreplays⟩ :=
            recoverName_replays (l := l) henv hfs₀ hlist.isListed hdent hname
          have hlist₁ : st₁.inodeList = st.inodeList := hlist₁
          cases hdata : doRecoverData l img env st₁.fs b with
          | none => simp [hdata] at hstep
          | some fs₁ =>
              simp only [hdata] at hstep
              have hblock := hreplays.append
                (doRecoverData_replays henv (hreplays.ok hfs) hdata)
              have hops : dnodeOps img env (fsynced img fs₀ found) st.links b c
                  = (r.1, r.2 ++ blockOps img env b
                    ++ evictOps (heldUntil img env (fsynced img fs₀ found) c r.1) r.1
                      (img.node b).ino) := by
                rw [← hr]
                rfl
              rw [hdo, if_pos rfl]
              split_ifs at hstep with hblk
              · obtain rfl := Except.ok.inj hstep
                rw [if_pos hblk] at hlist'
                refine ⟨rfl, by simpa [hlist₁] using hlist', _, hops, hlinks, ?_⟩
                refine hblock.append ?_
                have hheld : RecoverState.holds env { st₁ with
                    fs := fs₁
                    visited := st.visited ++ [b]
                    inodeList := delFsyncInode st₁.inodeList (img.node b).ino }
                    = heldUntil img env (fsynced img fs₀ found) c r.1 := by
                  funext ino
                  simp only [RecoverState.holds, heldUntil, hlinks, hlist₁, hlist'.isListed]
                rw [hheld, hlinks]
                exact evictOps_replays henv (hblock.ok hfs) _ _ _
              · obtain rfl := Except.ok.inj hstep
                rw [if_neg hblk] at hlist'
                refine ⟨rfl, by simpa [hlist₁] using hlist', _, hops, hlinks, ?_⟩
                -- the entry stays, and holds the inode
                have hheld : heldUntil img env (fsynced img fs₀ found) c r.1 (img.node b).ino
                    = true := by
                  rw [heldUntil, ← hlist'.isListed, hget]
                  simp
                rw [evictOps, if_neg (by simp [hheld]), List.append_nil]
                exact hblock

/-- **The second pass** replays the records of the chain, and uses up the list. -/
lemma recoverData_replays {fs₀ : RecoverFs} {found : List (BitVec 32)} {fuel : ℕ}
    (henv : env.PagesRead) (hchain : OnDiskChain l img blkaddr c)
    (hacc : ∀ b ∈ c, f2fsIsValidPorBlkaddr l b.toNat = true) (hnodup : found.Nodup)
    (hsuffix : c <:+ found) (hfs : FsOk st.fs) (hlist : ListInv img fs₀ found c st.inodeList)
    (hrun : recoverData l img env fuel st blkaddr = .ok st') :
    st'.visited = st.visited ++ c ∧ st'.inodeList = [] ∧
      Replays l st.fs (replayOps img env (fsynced img fs₀ found) st.links c)
        (st'.destroyLists env) := by
  induction c generalizing blkaddr fuel st with
  | nil =>
      cases fuel with
      | zero => simp [recoverData] at hrun
      | succ fuel =>
          have hstop : st' = st := by
            unfold recoverData at hrun
            cases hpor : f2fsIsValidPorBlkaddr l blkaddr.toNat with
            | false => simpa [hpor] using hrun.symm
            | true => simpa [hpor, OnDiskChain.ends hchain hpor] using hrun.symm
          subst hstop
          have hempty : st'.inodeList = [] := by
            refine List.eq_nil_iff_forall_not_mem.mpr fun e he => ?_
            simpa [PorImage.lastMark] using (hlist.entry e he).2
          refine ⟨by simp, hempty, ?_⟩
          rw [RecoverState.destroyLists, hempty]
          exact destroy_replays henv hfs env.held st'.links st'.links.dirList
  | cons b rest ih =>
      obtain ⟨rfl, hin, hrest⟩ := hchain
      cases fuel with
      | zero => simp [recoverData] at hrun
      | succ fuel =>
          have hpor := hacc b (by simp)
          simp only [recoverData, hpor, hin.2.2, Bool.not_true, Bool.false_eq_true,
            if_false] at hrun
          have hzero : b ≠ 0 := by
            rintro rfl
            have hpos : 0 < blocksPerSeg := by decide
            have hle : l.mainBlkaddr + 2 * blocksPerSeg ≤ 0 := (f2fsIsValidPorBlkaddr_iff.mp hpor).1
            omega
          cases hstep : recoverDnode l img env st b with
          | error e => simp [hstep] at hrun
          | ok st₁ =>
              simp only [hstep] at hrun
              obtain ⟨hvis, hlist', r, hr, hlinks, hreplays⟩ :=
                recoverDnode_replays henv hfs hnodup hsuffix hzero hlist hstep
              obtain ⟨hvis', hempty, hreplays'⟩ :=
                ih hrest (fun b' hb' => hacc b' (by simp [hb']))
                  ((List.suffix_cons b rest).trans hsuffix) (hreplays.ok hfs) hlist' hrun
              refine ⟨by simp [hvis', hvis], hempty, ?_⟩
              rw [hlinks] at hreplays'
              have hops : replayOps img env (fsynced img fs₀ found) st.links (b :: rest)
                  = r.2 ++ replayOps img env (fsynced img fs₀ found) r.1 rest := by
                rw [← hr, replayOps]
                split_ifs <;> rfl
              rw [hops]
              exact hreplays.append hreplays'

/-! ## The result -/

/-- The second pass ends where the first one did: it is never looped. -/
lemma recoverData_not_endless {fuel : ℕ} (hchain : OnDiskChain l img blkaddr c)
    (hlen : (c.takeWhile fun b => f2fsIsValidPorBlkaddr l b.toNat).length < fuel) :
    recoverData l img env fuel st blkaddr ≠ .error .endless := by
  induction c generalizing blkaddr fuel st with
  | nil =>
      cases fuel with
      | zero => simp at hlen
      | succ fuel =>
          unfold recoverData
          cases hpor : f2fsIsValidPorBlkaddr l blkaddr.toNat with
          | false => simp
          | true => simp [OnDiskChain.ends hchain hpor]
  | cons b rest ih =>
      obtain ⟨rfl, hin, hrest⟩ := hchain
      cases fuel with
      | zero => simp at hlen
      | succ fuel =>
          unfold recoverData
          cases hpor : f2fsIsValidPorBlkaddr l b.toNat with
          | false => simp
          | true =>
              rw [List.takeWhile_cons, hpor, if_pos rfl, List.length_cons] at hlen
              simp only [hin.2.2, Bool.not_true, Bool.false_eq_true, if_false]
              cases hstep : recoverDnode l img env st b with
              | error e =>
                  obtain rfl := recoverDnode_error hstep
                  simp
              | ok st₁ => exact ih hrest (by omega)

/-- The two ways in which recovery succeeds. -/
lemma f2fsRecoverFsyncData_ok {r : RecoverResult}
    (hok : f2fsRecoverFsyncData l img env false fs links = .ok r) :
    ∃ st, findFsyncDnodes l img env false (img.freeBlocks - 1) (.start fs links)
        img.nextFreeBlkaddr = .ok st ∧ r.visitedFind = st.visited ∧
      ((st.inodeList = [] ∧ r.fs = st.fs ∧ r.inodeList = [] ∧ r.visitedRecover = none) ∨
        ∃ st', recoverData l img env (img.freeBlocks + 1) { st with visited := [] }
            img.nextFreeBlkaddr = .ok st' ∧ st.inodeList ≠ [] ∧
          r.fs = st'.destroyLists env ∧ r.inodeList = st'.inodeList ∧
          r.visitedRecover = some st'.visited) := by
  unfold f2fsRecoverFsyncData at hok
  cases hfind : findFsyncDnodes l img env false (img.freeBlocks - 1) (.start fs links)
      img.nextFreeBlkaddr with
  | error e => simp [hfind] at hok
  | ok st =>
      simp only [hfind, Bool.false_eq_true, if_false] at hok
      refine ⟨st, rfl, ?_⟩
      cases hlist : st.inodeList.isEmpty with
      | true =>
          rw [List.isEmpty_iff] at hlist
          simp only [hlist, List.isEmpty_nil, if_true, Except.ok.injEq] at hok
          subst hok
          exact ⟨rfl, Or.inl ⟨hlist, rfl, rfl, rfl⟩⟩
      | false =>
          simp only [hlist, Bool.false_eq_true, if_false] at hok
          cases hrec : recoverData l img env (img.freeBlocks + 1) { st with visited := [] }
              img.nextFreeBlkaddr with
          | error e => simp [hrec] at hok
          | ok st' =>
              simp only [hrec] at hok
              split_ifs at hok
              obtain rfl := Except.ok.inj hok
              refine ⟨rfl, Or.inr ⟨st', rfl, ?_, rfl, rfl, rfl⟩⟩
              rintro hnil
              simp [hnil] at hlist

/-- Without a fsynced inode nothing is done. -/
lemma replayOps_eq_nil {isFsynced : ℕ → Bool} (h : ∀ ino, isFsynced ino = false)
    (hdirs : links.dirList = []) : replayOps img env isFsynced links c = [] := by
  induction c with
  | nil => simp [replayOps, hdirs]
  | cons b rest ih => simp [replayOps, h, ih]

lemma FindInv.init (img : PorImage) (fs : RecoverFs) (links : LinkState) :
    FindInv img fs links [] (.start fs links) where
  visited := rfl
  links := by simp [foundLinks, bornAt, RecoverState.start]
  fs_eq := rfl
  hasInode := by simp [fsynced, RecoverState.start]
  list := ⟨by simp [RecoverState.start], by simp [RecoverState.start],
    by simp [RecoverState.start], by simp [fsynced]⟩

/-- **The second pass comes to an end** after a first pass that has: its own loop has no check,
but the chain is the same. -/
theorem recoverData_terminates (hfs : Checkpointed fs links)
    (hchain : OnDiskChain l img img.nextFreeBlkaddr chain)
    (hfind : findFsyncDnodes l img env false (img.freeBlocks - 1) (.start fs links)
      img.nextFreeBlkaddr = .ok st) :
    recoverData l img env (img.freeBlocks + 1) { st with visited := [] } img.nextFreeBlkaddr
      ≠ .error .endless := by
  obtain ⟨-, hlen⟩ := findFsyncDnodes_inv hfs hchain (FindInv.init img fs links) hfind
  exact recoverData_not_endless hchain (by omega)

/-- **Roll-forward recovers everything that was fsynced iff** every block of the chain is accepted
and every recorded address is written, or was there before, and is kept: no later record takes the
block away, and the file is not evicted. -/
theorem recovered_iff {r : RecoverResult} (hfs : Checkpointed fs links) (henv : env.PagesRead)
    (hchain : OnDiskChain l img img.nextFreeBlkaddr chain)
    (hok : f2fsRecoverFsyncData l img env false fs links = .ok r) :
    Recovered img env fs links chain r ↔ RecoverCondition l img env fs links chain := by
  obtain ⟨st, hfind, hvf, hcases⟩ := f2fsRecoverFsyncData_ok hok
  obtain ⟨hinv, -⟩ := findFsyncDnodes_inv hfs hchain (FindInv.init img fs links) hfind
  rw [List.nil_append] at hinv
  by_cases hall : ∀ b ∈ chain, f2fsIsValidPorBlkaddr l b.toNat = true
  · have hwhole : (chain.takeWhile fun b => f2fsIsValidPorBlkaddr l b.toNat) = chain :=
      List.takeWhile_eq_self_iff.mpr hall
    rw [hwhole] at hinv
    rcases hcases with ⟨hnil, -, hlist, hnone⟩ | ⟨st', hrec, hne, hrfs, hlist, hsome⟩
    · -- Nothing was fsynced.
      have hnof : ∀ ino, fsynced img fs chain ino = false := by
        intro ino
        by_contra hf
        have hf : fsynced img fs chain ino = true := by simpa using hf
        obtain ⟨e, he, -⟩ := hinv.list.listed ino hf (marks_of_fsynced hf)
        simp [hnil] at he
      have hops : chainOps img env fs links chain = [] := replayOps_eq_nil hnof rfl
      refine iff_of_true ⟨hvf.trans hinv.visited, ?_, fun _ => hnof, hlist, ?_⟩ ⟨hall, ?_⟩
      · intro v hv
        simp [hnone] at hv
      · simp [hops, lastRecord]
      · simp [hops, lastRecord]
    · have hfsok : FsOk st.fs := by
        rw [hinv.fs_eq]
        exact ⟨hfs.ok.owner, hfs.ok.inline_null⟩
      have haddr : st.fs.addr = fs.addr := by rw [hinv.fs_eq]
      have hfsok' : FsOk ({ st with visited := [] } : RecoverState).fs := hfsok
      obtain ⟨hvis, hempty, hreplays⟩ :=
        recoverData_replays henv hchain hall hchain.nodup List.suffix_rfl hfsok' hinv.list hrec
      have hiff := replay_recorded_iff hfsok hreplays.ready hreplays.run
      dsimp only at hiff
      rw [hinv.links, haddr, ← hrfs] at hiff
      constructor
      · intro h
        exact ⟨hall, hiff.mp h.index⟩
      · intro h
        refine ⟨hvf.trans hinv.visited, ?_, ?_, hlist.trans hempty, hiff.mpr h.index⟩
        · intro v hv
          obtain rfl := Option.some.inj (hsome.symm.trans hv)
          simpa using hvis
        · intro hnone
          simp [hnone] at hsome
  · -- The first pass has ended at a block that is not accepted.
    refine iff_of_false (fun h => hall ?_) fun h => hall h.accepted
    have hwhole : (chain.takeWhile fun b => f2fsIsValidPorBlkaddr l b.toNat) = chain :=
      hinv.visited.symm.trans (hvf.symm.trans h.find)
    exact List.takeWhile_eq_self_iff.mp hwhole

/-! ### Two files -/

/-- After the checkpoint, inode 4 was written and then inode 5, which is new, to the first blocks
of MAIN segment 2; both are fsync-marked and have one data block.  Inode 5 has a name in
directory 3. -/
def fsyncImage (dataBlkaddr : BitVec 32) (name : List (BitVec 8)) : PorImage where
  node := fun b =>
    if b = 2560 then
      ⟨4, 4, 0, 1, 2561, true, false, false, false, 3, [], fun i =>
        if i = 0 then dataBlkaddr else nullAddr⟩
    else if b = 2561 then
      ⟨5, 5, 0, 1, 2562, true, true, false, false, 3, name, fun i =>
        if i = 0 then 2571 else nullAddr⟩
    else ⟨0, 0, 0, 0, 0, false, false, false, false, 0, [], fun _ => nullAddr⟩
  ckptVer := 1
  ckptCrc := 0
  nocrcRecovery := false
  crcRecovery := false
  nextFreeBlkaddr := 2560
  freeBlocks := 100
  reservedAddrs := fun _ => 0

/-- Everything outside works. -/
def calmEnv : RecoveryEnv where
  addInode := fun _ => true
  recoverDentry := fun _ => true
  recoverXattr := fun _ => true
  truncateBlocks := fun _ => true
  getDnode := fun _ => true
  reserve := fun _ _ => true
  prev := fun _ _ => .found
  held := fun _ => false
  evict := fun _ => true
  writeCheckpoint := true

/-- At the checkpoint, inode 4 was empty, in directory 3. -/
def emptyFile : RecoverFs where
  addr := fun _ => nullAddr
  valid := fun _ => false
  summary := fun _ => ⟨0, 0⟩
  hasInlineData := fun _ => false
  hasInode := fun ino => ino == 3 || ino == 4

/-- The name of inode 4 is `x`. -/
def oneName : LinkState where
  dentry := fun dir name => if dir = 3 ∧ name = [120] then some 4 else none
  nlink := fun ino => if ino = 3 then 2 else 1
  isDir := fun ino => ino == 3
  dirList := []

lemma emptyFile_checkpointed : Checkpointed emptyFile oneName where
  ok := ⟨fun _ hv => absurd rfl hv.1, fun _ h => absurd h (by simp [emptyFile])⟩
  linked := by
    intro ino _
    unfold oneName
    dsimp only
    split_ifs <;> decide
  absent_null := fun _ _ => rfl
  absent_inline := fun _ _ => rfl

lemma calmEnv_pagesRead : calmEnv.PagesRead where
  prev := by simp [calmEnv]
  truncateBlocks := fun _ => rfl
  evict := fun _ => rfl

lemma fsyncImage_chain (a : BitVec 32) (name : List (BitVec 8)) :
    OnDiskChain boundaryLayout (fsyncImage a name) 2560 [2560, 2561] := by
  refine ⟨rfl, ⟨by decide, by decide, rfl⟩, rfl, ⟨by decide, by decide, rfl⟩, ?_⟩
  rintro ⟨-, -, hrec⟩
  exact absurd hrec (by simp [PorImage.isRecoverableDnode, fsyncImage])

/-- With the data blocks in MAIN segment 2 as well.  Inode 5 has the name `y` in the first image;
in the second it takes the name `x`, the last link of inode 4, whose block is gone then. -/
theorem recovered_iff_names :
    (∃ r, f2fsRecoverFsyncData boundaryLayout (fsyncImage 2570 [121]) calmEnv false emptyFile
          oneName = .ok r ∧ r.fs.addr ⟨4, 0⟩ = 2570 ∧ r.fs.addr ⟨5, 0⟩ = 2571 ∧
        (Recovered (fsyncImage 2570 [121]) calmEnv emptyFile oneName [2560, 2561] r ↔
          RecoverCondition boundaryLayout (fsyncImage 2570 [121]) calmEnv emptyFile oneName
            [2560, 2561])) ∧
      ∃ r, f2fsRecoverFsyncData boundaryLayout (fsyncImage 2570 [120]) calmEnv false emptyFile
          oneName = .ok r ∧ r.fs.addr ⟨4, 0⟩ = nullAddr ∧ r.fs.addr ⟨5, 0⟩ = 2571 ∧
        (Recovered (fsyncImage 2570 [120]) calmEnv emptyFile oneName [2560, 2561] r ↔
          RecoverCondition boundaryLayout (fsyncImage 2570 [120]) calmEnv emptyFile oneName
            [2560, 2561]) := by
  have hy : (f2fsRecoverFsyncData boundaryLayout (fsyncImage 2570 [121]) calmEnv false emptyFile
      oneName).toOption.map (fun r => (r.fs.addr ⟨4, 0⟩, r.fs.addr ⟨5, 0⟩))
      = some (2570, 2571) := by decide +kernel
  have hx : (f2fsRecoverFsyncData boundaryLayout (fsyncImage 2570 [120]) calmEnv false emptyFile
      oneName).toOption.map (fun r => (r.fs.addr ⟨4, 0⟩, r.fs.addr ⟨5, 0⟩))
      = some (nullAddr, 2571) := by decide +kernel
  constructor
  · cases hres : f2fsRecoverFsyncData boundaryLayout (fsyncImage 2570 [121]) calmEnv false
        emptyFile oneName with
    | error e =>
        rw [hres] at hy
        simp [Except.toOption] at hy
    | ok r =>
        rw [hres] at hy
        obtain ⟨h₄, h₅⟩ := Prod.mk.inj (Option.some.inj hy)
        exact ⟨r, rfl, h₄, h₅, recovered_iff emptyFile_checkpointed calmEnv_pagesRead
          (fsyncImage_chain 2570 [121]) hres⟩
  · cases hres : f2fsRecoverFsyncData boundaryLayout (fsyncImage 2570 [120]) calmEnv false
        emptyFile oneName with
    | error e =>
        rw [hres] at hx
        simp [Except.toOption] at hx
    | ok r =>
        rw [hres] at hx
        obtain ⟨h₄, h₅⟩ := Prod.mk.inj (Option.some.inj hx)
        exact ⟨r, rfl, h₄, h₅, recovered_iff emptyFile_checkpointed calmEnv_pagesRead
          (fsyncImage_chain 2570 [120]) hres⟩

/-- **A fsynced block in MAIN segment 0 is lost**: recovery succeeds, and the index stays empty. -/
theorem recovered_broken :
    ¬ ∀ (l : Layout) (img : PorImage) (env : RecoveryEnv) (fs : RecoverFs) (links : LinkState)
        (chain : List (BitVec 32)) (r : RecoverResult), Checkpointed fs links → env.PagesRead →
        OnDiskChain l img img.nextFreeBlkaddr chain →
        f2fsRecoverFsyncData l img env false fs links = .ok r →
        Recovered img env fs links chain r := by
  intro hall
  have hrun : (f2fsRecoverFsyncData boundaryLayout (fsyncImage 1541 [121]) calmEnv false emptyFile
      oneName).toOption.map (fun r => r.fs.addr ⟨4, 0⟩) = some nullAddr := by decide +kernel
  have hlast : lastRecord ⟨4, 0⟩ (chainOps (fsyncImage 1541 [121]) calmEnv emptyFile oneName
      [2560, 2561]) = some 1541 := by decide +kernel
  cases hres : f2fsRecoverFsyncData boundaryLayout (fsyncImage 1541 [121]) calmEnv false emptyFile
      oneName with
  | error e =>
      rw [hres] at hrun
      simp [Except.toOption] at hrun
  | ok r =>
      have hrec := hall boundaryLayout (fsyncImage 1541 [121]) calmEnv emptyFile oneName
        [2560, 2561] r emptyFile_checkpointed calmEnv_pagesRead (fsyncImage_chain 1541 [121]) hres
      have haddr : r.fs.addr ⟨4, 0⟩ = nullAddr := by
        rw [hres] at hrun
        simpa [Except.toOption] using hrun
      rw [(hrec.index _ _ hlast).1] at haddr
      exact absurd haddr (by decide)

end Hoit
