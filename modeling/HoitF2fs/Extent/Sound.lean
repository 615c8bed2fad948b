import HoitF2fs.Extent.Nodes

/-!
# The extent cache is sound

* `WorkOk` — the counters and the common list, for one tree: the nodes of the tree are just those on
  the list with its inode number.
* `CacheOk` — the invariant, with `NodesOk` for each tree.
* `extent_cache_sound` — **every hit gives the address that was recorded last**, in every run.

What callers promise is in `ExtentCallersRight`: no file has offsets beyond 32 bits, and the extent
that is read in with an inode agrees with what has been recorded for it.
-/

namespace Hoit.Extent

open Transition

variable {recd recd' : ℕ → Recorded} {ei : ExtentInfo} {ino pos stop fofs len id : ℕ}
  {alloc : Bool} {nodes before rest : List ExtentNode} {w w' : Work} {ids ids' : List ℕ}
  {others : ℕ × ℕ → Prop}

/-! ## Counters -/

/-- The counters for the tree of inode `ino`, which has the nodes `ids`; `others` are the entries of
the other trees. -/
structure WorkOk (ino : ℕ) (others : ℕ × ℕ → Prop) (ids : List ℕ) (w : Work) : Prop where
  nodup : w.extentList.Nodup
  total : w.totalExtNode = w.extentList.length
  listed : ∀ id, (ino, id) ∈ w.extentList ↔ id ∈ ids
  other : ∀ p : ℕ × ℕ, p.1 ≠ ino → (p ∈ w.extentList ↔ others p)
  idsNodup : ids.Nodup
  cnt : w.nodeCnt = ids.length
  fresh : ∀ p ∈ w.extentList, p.2 < w.nextNode
  cached : ∀ id ∈ w.cachedEn, id ∈ ids

namespace WorkOk

lemma perm (h : WorkOk ino others ids w) (hp : ids'.Perm ids) : WorkOk ino others ids' w :=
  ⟨h.nodup, h.total, fun id => (h.listed id).trans hp.mem_iff.symm, h.other,
    hp.nodup_iff.mpr h.idsNodup, by rw [h.cnt, hp.length_eq], h.fresh,
    fun id hid => hp.mem_iff.mpr (h.cached id hid)⟩

lemma setLargest (h : WorkOk ino others ids w) (ei : ExtentInfo) :
    WorkOk ino others ids { w with largest := ei } := { h with }

lemma tryUpdateLargest (h : WorkOk ino others ids w) (ei : ExtentInfo) :
    WorkOk ino others ids (w.tryUpdateLargest ei) := by
  unfold Work.tryUpdateLargest
  split_ifs
  · exact h.setLargest ei
  · exact h

lemma dropLargest (h : WorkOk ino others ids w) (fofs len : ℕ) :
    WorkOk ino others ids (w.dropLargest fofs len) := by
  unfold Work.dropLargest
  split_ifs
  · exact h.setLargest _
  · exact h

lemma attach (h : WorkOk ino others ids w) :
    WorkOk ino others (w.nextNode :: ids) (w.attach ino) := by
  have hnew : (ino, w.nextNode) ∉ w.extentList := fun hmem => lt_irrefl _ (h.fresh _ hmem)
  refine ⟨?_, ?_, fun id => ?_, fun p hp => ?_, ?_, ?_, fun p hp => ?_, ?_⟩
  · simp only [Work.attach]
    exact List.nodup_append.mpr ⟨h.nodup, List.nodup_singleton _, fun a ha b hb heq =>
      hnew (List.mem_singleton.mp hb ▸ heq ▸ ha)⟩
  · simp [Work.attach, h.total]
  · simp only [Work.attach, List.mem_append, h.listed]
    rw [List.mem_singleton, List.mem_cons, or_comm, Prod.mk.injEq]
    simp only [true_and]
  · simp only [Work.attach, List.mem_append, List.mem_singleton, h.other p hp, or_iff_left_iff_imp]
    rintro rfl
    exact absurd rfl hp
  · refine List.nodup_cons.mpr ⟨fun hmem => hnew ((h.listed _).mpr hmem), h.idsNodup⟩
  · simp [Work.attach, h.cnt]
  · simp only [Work.attach, List.mem_append, List.mem_singleton] at hp ⊢
    rcases hp with hp | rfl
    · exact (h.fresh p hp).trans (Nat.lt_succ_self _)
    · exact Nat.lt_succ_self _
  · simp [Work.attach]

lemma release (h : WorkOk ino others ids w) (id : ℕ) (hid : id ∈ ids) :
    WorkOk ino others (ids.erase id) (w.release ino id) := by
  have hmem : (ino, id) ∈ w.extentList := (h.listed id).mpr hid
  refine ⟨h.nodup.erase _, ?_, fun j => ?_, fun p hp => ?_, h.idsNodup.erase _, ?_, fun p hp => ?_,
    fun j hj => ?_⟩
  · simp only [Work.release, h.total, List.length_erase_of_mem hmem]
    have := List.length_pos_of_mem hmem
    omega
  · simp only [Work.release]
    rw [h.nodup.mem_erase_iff, h.idsNodup.mem_erase_iff, h.listed]
    simp
  · simp only [Work.release]
    rw [h.nodup.mem_erase_iff, h.other p hp, and_iff_right_iff_imp]
    rintro - rfl
    exact hp rfl
  · simp only [Work.release, h.cnt, List.length_erase_of_mem hid]
    have := List.length_pos_of_mem hid
    omega
  · exact h.fresh p (List.mem_of_mem_erase hp)
  · simp only [Work.release] at hj
    split_ifs at hj with hc
    · simp at hj
    · rw [h.idsNodup.mem_erase_iff]
      refine ⟨?_, h.cached j hj⟩
      rintro rfl
      exact hc hj

lemma touch (h : WorkOk ino others ids w) (hid : id ∈ ids) :
    WorkOk ino others ids (w.touch ino id) := by
  have hmem : (ino, id) ∈ w.extentList := (h.listed id).mpr hid
  have hperm : (w.touch ino id).extentList.Perm w.extentList :=
    (List.perm_append_singleton _ _).trans (List.perm_cons_erase hmem).symm
  refine ⟨hperm.nodup_iff.mpr h.nodup, ?_, fun j => hperm.mem_iff.trans (h.listed j),
    fun p hp => hperm.mem_iff.trans (h.other p hp), h.idsNodup, h.cnt,
    fun p hp => h.fresh p (hperm.mem_iff.mp hp), fun j hj => ?_⟩
  · rw [hperm.length_eq]
    exact h.total
  · simp only [Work.touch, Option.mem_def, Option.some.injEq] at hj
    exact hj ▸ hid

lemma freeNodes (h : WorkOk ino others (nodes.map ExtentNode.id) w) :
    WorkOk ino others [] (w.freeNodes ino nodes) := by
  unfold Work.freeNodes
  induction nodes generalizing w with
  | nil => exact h
  | cons n nodes ih =>
      refine ih ?_
      simpa using h.release n.id (by simp)

end WorkOk

/-- The numbers of nodes. -/
def idsOf (nodes : List ExtentNode) : List ℕ := nodes.map ExtentNode.id

@[simp] lemma idsOf_append (a b : List ExtentNode) : idsOf (a ++ b) = idsOf a ++ idsOf b :=
  List.map_append

@[simp] lemma idsOf_cons (n : ExtentNode) (a : List ExtentNode) : idsOf (n :: a) = n.id :: idsOf a :=
  rfl

@[simp] lemma idsOf_nil : idsOf [] = [] := rfl

lemma invalidateNodes_workOk {prev : Bool} {deiLen : ℕ}
    (h : WorkOk ino others (idsOf (before ++ rest)) w) :
    WorkOk ino others
      (idsOf ((invalidateNodes ino pos stop alloc before rest prev deiLen w).before ++
        (invalidateNodes ino pos stop alloc before rest prev deiLen w).rest))
      (invalidateNodes ino pos stop alloc before rest prev deiLen w).w := by
  induction rest generalizing before prev deiLen w with
  | nil => exact h
  | cons en rest ih =>
      simp only [invalidateNodes]
      split_ifs
      · have hattach := ((h.attach.tryUpdateLargest (en.ei.cutRight stop)).tryUpdateLargest
          (en.ei.cutLeft pos))
        refine hattach.perm ?_
        simp only [idsOf_append, idsOf_cons, List.append_assoc, List.cons_append, List.nil_append]
        exact (List.perm_middle.trans
          (List.Perm.cons en.id List.perm_middle)).trans
          ((List.Perm.swap _ _ _).trans (List.Perm.cons _ List.perm_middle.symm))
      · exact ih (by simpa using h.tryUpdateLargest (en.ei.cutLeft pos))
      · simpa using h.tryUpdateLargest (en.ei.cutRight stop)
      · refine ih ((h.release en.id (by simp)).perm ?_)
        rw [idsOf_append, idsOf_append, idsOf_cons]
        exact (List.perm_middle.erase en.id |>.trans (by simp)).symm
      · exact h

lemma mergeOrInsert_workOk {x : Walk} (h : WorkOk ino others (idsOf (x.before ++ x.rest)) x.w) :
    WorkOk ino others (idsOf (mergeOrInsert ino ei alloc x).1) (mergeOrInsert ino ei alloc x).2 := by
  unfold mergeOrInsert
  cases hback : mergeBack x ei with
  | some prev =>
      obtain ⟨⟨B, hB⟩, -⟩ := mergeBack_spec hback
      simp only [hB, List.dropLast_concat] at h ⊢
      cases hfront : mergeFront x.rest (prev.ei.join ei) with
      | some next =>
          obtain ⟨⟨R, hR⟩, -⟩ := mergeFront_spec hfront
          simp only [hR, List.tail_cons] at h ⊢
          have hrel := h.release prev.id (by simp)
          have hperm : (idsOf (B ++ next :: R)).Perm
              ((idsOf (B ++ [prev] ++ next :: R)).erase prev.id) := by
            simp only [idsOf_append, idsOf_cons, List.append_assoc, List.cons_append,
              List.nil_append]
            exact (List.perm_middle.erase prev.id |>.trans (by simp)).symm
          have hids : idsOf (B ++ ⟨next.id, (prev.ei.join ei).join next.ei⟩ :: R)
              = idsOf (B ++ next :: R) := by simp
          rw [hids]
          exact ((hrel.perm hperm).tryUpdateLargest _).touch (by simp)
      | none =>
          have hids : idsOf (B ++ ⟨prev.id, prev.ei.join ei⟩ :: x.rest)
              = idsOf (B ++ [prev] ++ x.rest) := by simp
          simp only [hids]
          exact (h.tryUpdateLargest _).touch (by simp)
  | none =>
      cases hfront : mergeFront x.rest ei with
      | some next =>
          obtain ⟨⟨R, hR⟩, -⟩ := mergeFront_spec hfront
          simp only [hR, List.tail_cons] at h ⊢
          have hids : idsOf (x.before ++ ⟨next.id, ei.join next.ei⟩ :: R)
              = idsOf (x.before ++ next :: R) := by simp
          rw [hids]
          exact (h.tryUpdateLargest _).touch (by simp)
      | none =>
          simp only []
          split_ifs
          · refine (h.attach.perm ?_).tryUpdateLargest _
            simp only [idsOf_append, idsOf_cons]
            exact List.perm_middle
          · exact h

lemma updateRange_workOk {blkaddr : BitVec 32} (alloc₁ alloc₂ : Bool) (hn : NodesOk recd nodes)
    (h : WorkOk ino others (idsOf nodes) w) :
    WorkOk ino others (idsOf (updateRange ino nodes w fofs blkaddr len alloc₁ alloc₂).1)
      (updateRange ino nodes w fofs blkaddr len alloc₁ alloc₂).2.1 := by
  obtain ⟨heq, -, -⟩ := lookupRet_spec hn h.idsNodup w.cachedEn fofs
  set found := lookupRet nodes w.cachedEn fofs with hfound
  set x := invalidateNodes ino fofs (fofs + len) alloc₁ found.1 found.2 (knowsPrev found.2 fofs) 0
    (w.dropLargest fofs len) with hx
  have hwalk : WorkOk ino others (idsOf (x.before ++ x.rest)) x.w := by
    refine invalidateNodes_workOk ?_
    rw [heq]
    exact h.dropLargest fofs len
  unfold updateRange
  simp only [← hfound, ← hx]
  split_ifs
  · exact hwalk
  · exact WorkOk.freeNodes ((mergeOrInsert_workOk hwalk).dropLargest _ _)
  · exact mergeOrInsert_workOk hwalk

/-! ## All trees -/

/-- The common list is just the nodes of all trees. -/
structure CountsOk (trees : ℕ → Option ExtentTree) (totalExtNode : ℤ) (extentList : List (ℕ × ℕ))
    (nextNode : ℕ) : Prop where
  nodup : extentList.Nodup
  total : totalExtNode = extentList.length
  listed : ∀ ino id, (ino, id) ∈ extentList ↔ ∃ t, trees ino = some t ∧ id ∈ idsOf t.nodes
  fresh : ∀ p ∈ extentList, p.2 < nextNode
  idsNodup : ∀ ino t, trees ino = some t → (idsOf t.nodes).Nodup
  cnt : ∀ ino t, trees ino = some t → t.nodeCnt = (idsOf t.nodes).length
  cached : ∀ ino t, trees ino = some t → ∀ id ∈ t.cachedEn, id ∈ idsOf t.nodes

/-- What holds for one inode. -/
structure InodeOk (recd : ℕ → Recorded) (i : InodeExt) (tree : Option ExtentTree) : Prop where
  nodes : ∀ t ∈ tree, NodesOk recd t.nodes
  largest : ∀ t ∈ tree, LargestOk recd t.largest
  /-- Nothing is left in a tree that has been given up. -/
  off : ∀ t ∈ tree, i.noExtent = true → t.nodes = [] ∧ t.largest.len = 0
  hasTree : i.live = true → (i.hasTree = true ↔ tree.isSome = true)
  gone : i.live = false → i = ⟨false, false, false⟩

structure CacheOk (c : ExtentCache) : Prop where
  inode : ∀ ino, InodeOk (c.recorded ino) (c.inodes ino) (c.trees ino)
  counts : CountsOk c.trees c.totalExtNode c.extentList c.nextNode
  zombiesNodup : c.zombieList.Nodup
  /-- **A zombie is a tree without an inode.** -/
  zombies : ∀ ino ∈ c.zombieList, (c.inodes ino).live = false ∧ (c.trees ino).isSome = true

variable {c : ExtentCache} {t : ExtentTree} {i : InodeExt} {j : ℕ}

lemma CountsOk.work (h : CountsOk c.trees c.totalExtNode c.extentList c.nextNode)
    (ht : c.trees ino = some t) : WorkOk ino (· ∈ c.extentList) (idsOf t.nodes) (c.work t) where
  nodup := h.nodup
  total := h.total
  listed id := by
    rw [ExtentCache.work, h.listed, ht]
    simp
  other _ _ := Iff.rfl
  idsNodup := h.idsNodup ino t ht
  cnt := h.cnt ino t ht
  fresh := h.fresh
  cached := h.cached ino t ht

lemma CountsOk.setTree (h : CountsOk c.trees c.totalExtNode c.extentList c.nextNode)
    (hw : WorkOk ino (· ∈ c.extentList) (idsOf nodes) w) :
    CountsOk (c.setTree ino nodes w).trees (c.setTree ino nodes w).totalExtNode
      (c.setTree ino nodes w).extentList (c.setTree ino nodes w).nextNode := by
  have htree : ∀ {j : ℕ} {t : ExtentTree}, (c.setTree ino nodes w).trees j = some t →
      t = ⟨nodes, w.cachedEn, w.largest, w.nodeCnt⟩ ∨ c.trees j = some t := by
    intro j t hj
    by_cases hji : j = ino
    · subst hji
      simp only [ExtentCache.setTree, Function.update_self, Option.some.injEq] at hj
      exact Or.inl hj.symm
    · simp only [ExtentCache.setTree, Function.update_of_ne hji] at hj
      exact Or.inr hj
  refine ⟨hw.nodup, hw.total, fun j id => ?_, hw.fresh, fun j t hj => ?_, fun j t hj => ?_,
    fun j t hj => ?_⟩
  · by_cases hji : j = ino
    · subst hji
      simp only [ExtentCache.setTree, Function.update_self, hw.listed, Option.some.injEq,
        exists_eq_left']
    · simp only [ExtentCache.setTree, Function.update_of_ne hji]
      rw [hw.other (j, id) hji, h.listed]
  · rcases htree hj with rfl | hj
    · exact hw.idsNodup
    · exact h.idsNodup j t hj
  · rcases htree hj with rfl | hj
    · exact hw.cnt
    · exact h.cnt j t hj
  · rcases htree hj with rfl | hj
    · exact hw.cached
    · exact h.cached j t hj

lemma CountsOk.perm {trees : ℕ → Option ExtentTree} {totalExtNode : ℤ} {nextNode : ℕ}
    {extentList extentList' : List (ℕ × ℕ)} (h : CountsOk trees totalExtNode extentList nextNode)
    (hp : extentList'.Perm extentList) : CountsOk trees totalExtNode extentList' nextNode where
  nodup := hp.nodup_iff.mpr h.nodup
  total := by rw [h.total, hp.length_eq]
  listed ino id := hp.mem_iff.trans (h.listed ino id)
  fresh p hmem := h.fresh p (hp.mem_iff.mp hmem)
  idsNodup := h.idsNodup
  cnt := h.cnt
  cached := h.cached

lemma CountsOk.newTree (h : CountsOk c.trees c.totalExtNode c.extentList c.nextNode)
    (hnone : c.trees ino = none) :
    CountsOk (Function.update c.trees ino (some ⟨[], none, ⟨0, 0, 0⟩, 0⟩)) c.totalExtNode
      c.extentList c.nextNode := by
  have hw : WorkOk ino (· ∈ c.extentList) (idsOf [])
      ⟨none, ⟨0, 0, 0⟩, 0, c.totalExtNode, c.extentList, c.nextNode⟩ := by
    refine ⟨h.nodup, h.total, fun id => ?_, fun _ _ => Iff.rfl, List.nodup_nil, rfl, h.fresh, ?_⟩
    · simp [h.listed, hnone]
    · simp
  exact h.setTree hw

lemma CountsOk.deleteTree (h : CountsOk c.trees c.totalExtNode c.extentList c.nextNode)
    (hnil : ∀ t, c.trees ino = some t → t.nodes = []) :
    CountsOk (c.deleteTree ino).trees (c.deleteTree ino).totalExtNode
      (c.deleteTree ino).extentList (c.deleteTree ino).nextNode := by
  have htree : ∀ {j : ℕ} {t : ExtentTree}, (c.deleteTree ino).trees j = some t →
      c.trees j = some t := by
    intro j t hj
    by_cases hji : j = ino
    · subst hji
      simp [ExtentCache.deleteTree] at hj
    · simpa only [ExtentCache.deleteTree, Function.update_of_ne hji] using hj
  refine ⟨h.nodup, h.total, fun j id => ?_, h.fresh, fun j t hj => h.idsNodup j t (htree hj),
    fun j t hj => h.cnt j t (htree hj), fun j t hj => h.cached j t (htree hj)⟩
  refine (h.listed j id).trans ⟨?_, ?_⟩
  · rintro ⟨t, ht, hid⟩
    by_cases hji : j = ino
    · subst hji
      simp [hnil t ht] at hid
    · exact ⟨t, by simpa only [ExtentCache.deleteTree, Function.update_of_ne hji] using ht, hid⟩
  · rintro ⟨t, ht, hid⟩
    exact ⟨t, htree ht, hid⟩

/-! ## One inode -/

/-- Nothing has to be known about an inode without a tree. -/
lemma InodeOk.none {recd : ℕ → Recorded} (h : InodeOk recd i none) (recd' : ℕ → Recorded) :
    InodeOk recd' i none :=
  ⟨by simp, by simp, by simp, h.hasTree, h.gone⟩

/-- What was sound for the record still is. -/
lemma InodeOk.mono {tree : Option ExtentTree} (h : InodeOk recd i tree)
    (hsound : ∀ ei, Sound recd ei → Sound recd' ei) : InodeOk recd' i tree where
  nodes t ht := (h.nodes t ht).congr fun n hn => hsound n.ei ((h.nodes t ht).sound n hn)
  largest t ht := ⟨hsound t.largest (h.largest t ht).sound, (h.largest t ht).fits⟩
  off := h.off
  hasTree := h.hasTree
  gone := h.gone

/-- **All that is ever done to the tree of one inode**, with what is recorded for that inode. -/
lemma CacheOk.setTree (h : CacheOk c) (ht : c.trees ino = some t)
    (hw : WorkOk ino (· ∈ c.extentList) (idsOf nodes) w) (hn : NodesOk recd nodes)
    (hl : LargestOk recd w.largest)
    (hoff : (c.inodes ino).noExtent = true → nodes = [] ∧ w.largest.len = 0) :
    CacheOk { c.setTree ino nodes w with recorded := Function.update c.recorded ino recd } := by
  refine ⟨fun j => ?_, h.counts.setTree hw, h.zombiesNodup, fun j hj => ?_⟩
  · by_cases hji : j = ino
    · subst hji
      have hi := h.inode j
      rw [ht] at hi
      simp only [ExtentCache.setTree, Function.update_self]
      refine ⟨?_, ?_, ?_, hi.hasTree, hi.gone⟩
      · rintro _ ⟨⟩
        exact hn
      · rintro _ ⟨⟩
        exact hl
      · rintro _ ⟨⟩
        exact hoff
    · simp only [ExtentCache.setTree, Function.update_of_ne hji]
      exact h.inode j
  · obtain ⟨hlive, hsome⟩ := h.zombies j hj
    refine ⟨hlive, ?_⟩
    by_cases hji : j = ino
    · subst hji
      simp [ExtentCache.setTree]
    · simpa only [ExtentCache.setTree, Function.update_of_ne hji] using hsome

/-- The same, without a change to the record. -/
lemma CacheOk.setTree_same (h : CacheOk c) (ht : c.trees ino = some t)
    (hw : WorkOk ino (· ∈ c.extentList) (idsOf nodes) w) (hn : NodesOk (c.recorded ino) nodes)
    (hl : LargestOk (c.recorded ino) w.largest)
    (hoff : (c.inodes ino).noExtent = true → nodes = [] ∧ w.largest.len = 0) :
    CacheOk (c.setTree ino nodes w) := by
  have hset := h.setTree ht hw hn hl hoff
  rwa [Function.update_eq_self] at hset

/-- `FI_NO_EXTENT` is set when nothing is left. -/
lemma CacheOk.setNoExtent (h : CacheOk c) (b : Bool)
    (hoff : ∀ t ∈ c.trees ino, b = true → t.nodes = [] ∧ t.largest.len = 0)
    (hlive : (c.inodes ino).live = true) :
    CacheOk { c with
      inodes := Function.update c.inodes ino { c.inodes ino with noExtent := b } } := by
  refine ⟨fun j => ?_, h.counts, h.zombiesNodup, fun j hj => ?_⟩
  · by_cases hji : j = ino
    · subst hji
      simp only [Function.update_self]
      have hi := h.inode j
      exact ⟨hi.nodes, hi.largest, hoff, hi.hasTree, fun hl => absurd (hlive ▸ hl) (by simp)⟩
    · simp only [Function.update_of_ne hji]
      exact h.inode j
  · obtain ⟨hl, hsome⟩ := h.zombies j hj
    have hji : j ≠ ino := by
      rintro rfl
      simp [hlive] at hl
    simp only [Function.update_of_ne hji]
    exact ⟨hl, hsome⟩

/-! ## An inode comes into memory -/

/-- An extent that is read in agrees with what has been recorded. -/
def Agrees (recd : ℕ → Recorded) (ei : ExtentInfo) : Prop :=
  ∀ ofs < ei.stop, ei.fofs ≤ ofs → recd ofs = .unknown ∨ recd ofs = .at (ei.addr ofs)

lemma CacheOk.record (h : CacheOk c) (hei : Agrees (c.recorded ino) ei) :
    CacheOk (c.record ino ei) := by
  refine ⟨fun j => ?_, h.counts, h.zombiesNodup, h.zombies⟩
  by_cases hji : j = ino
  · subst hji
    refine (h.inode j).mono fun ei' hsound => hsound.congr fun ofs hofs => ?_
    simp only [ExtentCache.record, Function.update_self]
    split_ifs with hhas
    · -- What is recorded for an offset of a sound extent is known.
      rw [ExtentInfo.has_iff] at hhas
      rcases hei ofs hhas.2 hhas.1 with hunknown | hat
      · rw [hsound ofs hofs] at hunknown
        exact absurd hunknown (by simp)
      · exact hat.symm
    · rfl
  · simp only [ExtentCache.record, Function.update_of_ne hji]
    exact h.inode j

lemma record_sound (c : ExtentCache) (ino : ℕ) (ei : ExtentInfo) :
    Sound ((c.record ino ei).recorded ino) ei := by
  intro ofs hofs
  simp only [ExtentCache.record, Function.update_self, if_pos hofs]

/-- The inode is in memory, and it has a tree. -/
lemma CacheOk.grab (h : CacheOk c) (hlive : (c.inodes ino).live = false) :
    CacheOk { c.grabExtentTree ino with
      inodes := Function.update c.inodes ino ⟨true, true, false⟩ } := by
  unfold ExtentCache.grabExtentTree
  cases ht : c.trees ino with
  | some t =>
      refine ⟨fun j => ?_, h.counts, h.zombiesNodup.erase ino, fun j hj => ?_⟩
      · by_cases hji : j = ino
        · subst hji
          have hi := h.inode j
          simp only [Function.update_self]
          exact ⟨hi.nodes, hi.largest, by simp, by simp [ht], by simp⟩
        · simp only [Function.update_of_ne hji]
          exact h.inode j
      · obtain ⟨hji, hj⟩ := h.zombiesNodup.mem_erase_iff.mp hj
        simp only [Function.update_of_ne hji]
        exact h.zombies j hj
  | none =>
      refine ⟨fun j => ?_, h.counts.newTree ht, h.zombiesNodup, fun j hj => ?_⟩
      · by_cases hji : j = ino
        · subst hji
          simp only [Function.update_self]
          refine ⟨?_, ?_, by simp, by simp, by simp⟩
          · rintro _ ⟨⟩
            exact nodesOk_nil
          · rintro _ ⟨⟩
            exact ⟨sound_of_empty rfl, by simp [ExtentInfo.stop]⟩
        · simp only [Function.update_of_ne hji]
          exact h.inode j
      · have hji : j ≠ ino := by
          rintro rfl
          simpa [ht] using (h.zombies j hj).2
        simp only [Function.update_of_ne hji]
        exact h.zombies j hj

lemma CacheOk.init {may : Bool} {iExt : Option ExtentInfo} (h : CacheOk c)
    (hlive : (c.inodes ino).live = false) (hmay : (c.trees ino).isSome = true → may = true)
    (hei : ∀ ei ∈ iExt, ei.stop < 2 ^ 32 ∧ Sound (c.recorded ino) ei) :
    CacheOk (c.f2fsInitExtentTree ino may iExt alloc) := by
  unfold ExtentCache.f2fsInitExtentTree
  cases may with
  | false =>
      have hnone : c.trees ino = none := by
        cases ht : c.trees ino with
        | none => rfl
        | some t => simp [ht] at hmay
      simp only [Bool.false_eq_true, if_false]
      refine ⟨fun j => ?_, h.counts, h.zombiesNodup, fun j hj => ?_⟩
      · by_cases hji : j = ino
        · subst hji
          simp only [Function.update_self, hnone]
          exact ⟨by simp, by simp, by simp, by simp, by simp⟩
        · simp only [Function.update_of_ne hji]
          exact h.inode j
      · have hji : j ≠ ino := by
          rintro rfl
          simpa [hnone] using (h.zombies j hj).2
        simp only [Function.update_of_ne hji]
        exact h.zombies j hj
  | true =>
      have hgrab := h.grab hlive
      set c₁ : ExtentCache := { c.grabExtentTree ino with
        inodes := Function.update c.inodes ino ⟨true, true, false⟩ } with hc₁
      have hrec : c₁.recorded = c.recorded := by
        simp only [hc₁, ExtentCache.grabExtentTree]
        split <;> rfl
      simp only [if_true]
      split
      · next ei t ht =>
          split_ifs with hskip
          · exact hgrab
          · obtain ⟨hlt, hsound⟩ := hei ei rfl
            simp only [not_or, not_not] at hskip
            rw [← hrec] at hsound
            have hw := hgrab.counts.work ht
            have hnil : idsOf t.nodes = [] := by
              have hcnt : t.nodeCnt = (idsOf t.nodes).length := hw.cnt
              rw [hskip.2.1] at hcnt
              exact List.length_eq_zero_iff.mp (by exact_mod_cast hcnt.symm)
            rw [hnil] at hw
            refine hgrab.setTree_same ht (hw.attach.setLargest ei) ?_ ⟨hsound, hlt⟩ ?_
            · refine ⟨List.pairwise_singleton _ _, ?_, ?_⟩
              · rintro n hn
                rw [List.mem_singleton.mp hn]
                exact ⟨Nat.pos_of_ne_zero hskip.1, hlt⟩
              · rintro n hn
                rw [List.mem_singleton.mp hn]
                exact hsound
            · simp [hc₁]
      · exact hgrab

/-! ## The other calls -/

lemma sameOff_recordRange (recd : ℕ → Recorded) (fofs len : ℕ) (blkaddr : BitVec 32) :
    SameOff recd (recordRange recd fofs len blkaddr) fofs (fofs + len) := by
  intro ofs hofs
  exact if_neg (by omega)

lemma recordRange_sound {blkaddr : BitVec 32} (recd : ℕ → Recorded) (fofs len : ℕ)
    (hblk : blkaddr ≠ 0) : Sound (recordRange recd fofs len blkaddr) ⟨fofs, len, blkaddr⟩ := by
  intro ofs hofs
  rw [ExtentInfo.has_iff] at hofs
  simp only [ExtentInfo.stop] at hofs
  rw [recordRange, if_pos hofs, if_neg hblk, ExtentInfo.addr]

lemma CacheOk.update {blkaddr : BitVec 32} {alloc₁ alloc₂ : Bool} (h : CacheOk c)
    (hlive : (c.inodes ino).live = true) (hpos : 1 ≤ len) (hlt : fofs + len < 2 ^ 32) :
    CacheOk (ExtentCache.f2fsUpdateExtentTreeRange
      { c with recorded :=
          Function.update c.recorded ino (recordRange (c.recorded ino) fofs len blkaddr) }
      ino fofs blkaddr len alloc₁ alloc₂) := by
  have hi := h.inode ino
  unfold ExtentCache.f2fsUpdateExtentTreeRange
  cases ht : c.trees ino with
  | none =>
      refine ⟨fun j => ?_, h.counts, h.zombiesNodup, h.zombies⟩
      by_cases hji : j = ino
      · subst hji
        rw [ht] at hi ⊢
        exact hi.none _
      · simp only [Function.update_of_ne hji]
        exact h.inode j
  | some t =>
      rw [ht] at hi
      have htree : (c.inodes ino).hasTree = true := (hi.hasTree hlive).mpr rfl
      have hw := h.counts.work ht
      dsimp only
      set recd := recordRange (c.recorded ino) fofs len blkaddr with hrecd
      by_cases hno : (c.inodes ino).noExtent = true
      · rw [if_pos (Or.inr hno)]
        -- Nothing is left in the tree, so the record does not matter to it.
        obtain ⟨hnil, hzero⟩ := hi.off t rfl hno
        have hl : LargestOk recd t.largest := ⟨sound_of_empty hzero, (hi.largest t rfl).fits⟩
        have hset := h.setTree ht hw (hnil ▸ nodesOk_nil) hl fun _ => ⟨hnil, hzero⟩
        have htrees : (c.setTree ino t.nodes (c.work t)).trees = c.trees := by
          rw [ExtentCache.setTree, ExtentCache.work, ← ht, Function.update_eq_self]
        exact ⟨fun j => htrees ▸ hset.inode j, h.counts, h.zombiesNodup, h.zombies⟩
      · rw [if_neg (by simp [htree, hno])]
        have hlargest : LargestOk (c.recorded ino) (c.work t).largest := hi.largest t rfl
        obtain ⟨hok, hl, hoff⟩ := updateRange_nodesOk ino alloc₁ alloc₂ (hi.nodes t rfl) hw.idsNodup
          hlargest (sameOff_recordRange (c.recorded ino) fofs len blkaddr)
          (recordRange_sound _ _ _) hpos hlt
        have hset := h.setTree ht (updateRange_workOk alloc₁ alloc₂ (hi.nodes t rfl) hw) hok hl
          fun hno' => absurd hno' hno
        refine hset.setNoExtent
          (updateRange ino t.nodes (c.work t) fofs blkaddr len alloc₁ alloc₂).2.2
          (fun t' ht' hb => ?_) hlive
        simp only [ExtentCache.setTree, Function.update_self, Option.mem_def, Option.some.injEq]
          at ht'
        exact ht' ▸ hoff hb

lemma lookup_node {t : ExtentTree} {ofs : ℕ} {en : ExtentNode}
    (h : (lookupFast t.nodes t.cachedEn ofs).or (t.nodes.find? fun n => n.ei.has ofs) = some en) :
    en ∈ t.nodes ∧ en.ei.has ofs = true := by
  rcases Option.or_eq_some_iff.mp h with hfast | ⟨-, hfind⟩
  · exact lookupFast_spec hfast
  · have hp := List.find?_some hfind
    exact ⟨List.mem_of_find?_eq_some hfind, hp⟩

lemma CacheOk.lookup {ofs : ℕ} {c' : ExtentCache} (h : CacheOk c)
    (hl : c.f2fsLookupExtentTree ino ofs = some (ei, c')) :
    CacheOk c' ∧ ei.has ofs = true ∧ c.recorded ino ofs = .at (ei.addr ofs) := by
  have hi := h.inode ino
  unfold ExtentCache.f2fsLookupExtentTree at hl
  cases ht : c.trees ino with
  | none => simp [ht] at hl
  | some t =>
      rw [ht] at hi
      simp only [ht] at hl
      split_ifs at hl with hhas
      · obtain ⟨rfl, rfl⟩ := hl
        exact ⟨h, hhas, (hi.largest t rfl).sound ofs hhas⟩
      · obtain ⟨en, hen, heq⟩ := Option.map_eq_some_iff.mp hl
        obtain ⟨rfl, rfl⟩ := heq
        obtain ⟨hmem, hhas'⟩ := lookup_node hen
        have hid : en.id ∈ idsOf t.nodes := List.mem_map_of_mem hmem
        have hw := (h.counts.work ht).touch hid
        exact ⟨h.setTree_same ht hw (hi.nodes t rfl) (hi.largest t rfl) (hi.off t rfl), hhas',
          (hi.nodes t rfl).sound en hmem ofs hhas'⟩

lemma CacheOk.freeTree (h : CacheOk c) (ino : ℕ) : CacheOk (c.freeTree ino) := by
  unfold ExtentCache.freeTree
  cases ht : c.trees ino with
  | none => exact h
  | some t =>
      have hi := h.inode ino
      rw [ht] at hi
      refine h.setTree_same ht (h.counts.work ht).freeNodes nodesOk_nil ?_ fun hno => ⟨rfl, ?_⟩
      · rw [Work.freeNodes_largest]
        exact hi.largest t rfl
      · rw [Work.freeNodes_largest]
        exact (hi.off t rfl hno).2

lemma CacheOk.drop (h : CacheOk c) (hlive : (c.inodes ino).live = true) :
    CacheOk (c.f2fsDropExtentTree ino) := by
  unfold ExtentCache.f2fsDropExtentTree
  cases ht : c.trees ino with
  | none => exact h
  | some t =>
      have hi := h.inode ino
      rw [ht] at hi
      dsimp only
      split_ifs
      · exact h
      · have hl : LargestOk (c.recorded ino) ((c.work t).freeNodes ino t.nodes).largest := by
          rw [Work.freeNodes_largest]
          exact hi.largest t rfl
        obtain ⟨hzero, hok⟩ := Work.dropLargest_all (c.recorded ino) hl
        have hw : WorkOk ino (· ∈ c.extentList) (idsOf []) ((c.work t).freeNodes ino t.nodes) :=
          (h.counts.work ht).freeNodes
        have hset := h.setTree_same ht (hw.dropLargest 0 (2 ^ 32 - 1)) nodesOk_nil hok
          fun _ => ⟨rfl, hzero⟩
        refine hset.setNoExtent true (fun t' ht' _ => ?_) hlive
        simp only [ExtentCache.setTree, Function.update_self, Option.mem_def, Option.some.injEq]
          at ht'
        exact ht' ▸ ⟨rfl, hzero⟩

/-- A tree goes, and its inode is not in memory. -/
lemma CacheOk.deleteTree (h : CacheOk c) (ino : ℕ) :
    CacheOk { (c.freeTree ino).deleteTree ino with
      inodes := Function.update c.inodes ino ⟨false, false, false⟩
      zombieList := c.zombieList.erase ino } := by
  have hfree := h.freeTree ino
  have hnil : ∀ t, (c.freeTree ino).trees ino = some t → t.nodes = [] := by
    intro t ht
    unfold ExtentCache.freeTree at ht
    cases hc : c.trees ino with
    | none => simp [hc] at ht
    | some t' =>
        simp only [hc, ExtentCache.setTree, Function.update_self, Option.some.injEq] at ht
        exact ht ▸ rfl
  have hsame : (c.freeTree ino).inodes = c.inodes ∧ (c.freeTree ino).zombieList = c.zombieList := by
    unfold ExtentCache.freeTree
    split <;> exact ⟨rfl, rfl⟩
  refine ⟨fun j => ?_, hfree.counts.deleteTree hnil, h.zombiesNodup.erase ino, fun j hj => ?_⟩
  · by_cases hji : j = ino
    · subst hji
      simp only [ExtentCache.deleteTree, Function.update_self]
      exact ⟨by simp, by simp, by simp, by simp, fun _ => rfl⟩
    · have hi := hfree.inode j
      rw [hsame.1] at hi
      simpa only [ExtentCache.deleteTree, Function.update_of_ne hji] using hi
  · obtain ⟨hji, hj⟩ := h.zombiesNodup.mem_erase_iff.mp hj
    have hz := hfree.zombies j (hsame.2 ▸ hj)
    rw [hsame.1] at hz
    simpa only [ExtentCache.deleteTree, Function.update_of_ne hji] using hz

/-- An inode leaves memory. -/
lemma CacheOk.destroyTree (h : CacheOk c) (hlive : (c.inodes ino).live = true) (keep : Bool) :
    CacheOk (c.f2fsDestroyExtentTree ino keep) ∧
      (keep = false → (c.f2fsDestroyExtentTree ino keep).trees ino = none) := by
  have hi := h.inode ino
  have hnotZombie : ino ∉ c.zombieList := by
    intro hmem
    simp [(h.zombies ino hmem).1] at hlive
  have hfreed := h.deleteTree ino
  rw [List.erase_of_not_mem hnotZombie] at hfreed
  unfold ExtentCache.f2fsDestroyExtentTree
  cases ht : c.trees ino with
  | none =>
      refine ⟨⟨fun j => ?_, h.counts, h.zombiesNodup, fun j hj => ?_⟩, fun _ => ht⟩
      · by_cases hji : j = ino
        · subst hji
          rw [ht] at hi
          simp only [Function.update_self, ht]
          exact ⟨by simp, by simp, by simp, by simp, fun _ => rfl⟩
        · simp only [Function.update_of_ne hji]
          exact h.inode j
      · have hji : j ≠ ino := fun heq => hnotZombie (heq ▸ hj)
        simp only [Function.update_of_ne hji]
        exact h.zombies j hj
  | some t =>
      rw [ht] at hi
      have htree : (c.inodes ino).hasTree = true := (hi.hasTree hlive).mpr rfl
      dsimp only
      rw [if_neg (by simp [htree])]
      split_ifs with hkeep
      · -- The tree waits for its inode to come back.
        simp only [Bool.and_eq_true] at hkeep
        refine ⟨⟨fun j => ?_, h.counts, ?_, fun j hj => ?_⟩, fun hk => by simp [hk] at hkeep⟩
        · by_cases hji : j = ino
          · subst hji
            simp only [Function.update_self, ht]
            exact ⟨hi.nodes, hi.largest, by simp, by simp, fun _ => rfl⟩
          · simp only [Function.update_of_ne hji]
            exact h.inode j
        · refine List.nodup_append.mpr ⟨h.zombiesNodup, List.nodup_singleton _, ?_⟩
          rintro a ha b hb rfl
          exact hnotZombie (List.mem_singleton.mp hb ▸ ha)
        · by_cases hji : j = ino
          · subst hji
            simp [ht]
          · simp only [Function.update_of_ne hji]
            rcases List.mem_append.mp hj with hj | hj
            · exact h.zombies j hj
            · exact absurd (List.mem_singleton.mp hj) hji
      · refine ⟨?_, fun _ => by simp [ExtentCache.deleteTree]⟩
        have hsame : ((c.freeTree ino).deleteTree ino).inodes = c.inodes ∧
            ((c.freeTree ino).deleteTree ino).zombieList = c.zombieList := by
          simp only [ExtentCache.deleteTree, ExtentCache.freeTree, ht]
          exact ⟨rfl, rfl⟩
        rw [← hsame.2, ← hsame.1] at hfreed
        exact hfreed

lemma CacheOk.shrinkZombies {zs : List ℕ} {left : ℤ} (h : CacheOk c) (hzs : c.zombieList = zs) :
    CacheOk (c.shrinkZombies left zs).1 := by
  induction zs generalizing c left with
  | nil => exact h
  | cons ino zs ih =>
      have hgone := (h.inode ino).gone (h.zombies ino (by simp [hzs])).1
      have hfreed := h.deleteTree ino
      have hinodes : (c.freeTree ino).inodes = c.inodes := by
        unfold ExtentCache.freeTree
        split <;> rfl
      rw [← hgone, Function.update_eq_self, ← hinodes] at hfreed
      simp only [ExtentCache.shrinkZombies]
      split_ifs
      · exact hfreed
      · exact ih hfreed (by simp [hzs])

lemma CacheOk.shrinkNodes {locks : List Bool} (h : CacheOk c) : CacheOk (c.shrinkNodes locks) := by
  induction locks generalizing c with
  | nil => exact h
  | cons lock locks ih =>
      simp only [ExtentCache.shrinkNodes]
      cases hlist : c.extentList with
      | nil => exact h
      | cons p ps =>
          obtain ⟨ino, id⟩ := p
          dsimp only
          cases ht : c.trees ino with
          | none => exact h
          | some t =>
              have hi := h.inode ino
              rw [ht] at hi
              have hid : id ∈ idsOf t.nodes := by
                obtain ⟨t', ht', hid⟩ := (h.counts.listed ino id).mp (by simp [hlist])
                rw [ht] at ht'
                obtain rfl := Option.some.inj ht'
                exact hid
              have hw := h.counts.work ht
              dsimp only
              split_ifs
              · have hids : idsOf (t.nodes.filter fun n => n.id != id) = (idsOf t.nodes).erase id := by
                  rw [hw.idsNodup.erase_eq_filter, idsOf, idsOf, List.filter_map]
                  rfl
                refine ih (h.setTree_same ht (hids ▸ hw.release id hid)
                  ((hi.nodes t rfl).sublist List.filter_sublist) (hi.largest t rfl) fun hno => ?_)
                obtain ⟨hnil, hzero⟩ := hi.off t rfl hno
                exact ⟨by rw [hnil, List.filter_nil], hzero⟩
              · refine ih ⟨h.inode, h.counts.perm ?_, h.zombiesNodup, h.zombies⟩
                rw [hlist]
                exact (List.perm_append_singleton _ _).trans (List.perm_cons_erase (by simp)).symm

lemma CacheOk.shrink {nrShrink : ℕ} {lock₁ lock₂ : Bool} {locks : ℕ → Bool} (h : CacheOk c) :
    CacheOk (c.f2fsShrinkExtentTree nrShrink lock₁ lock₂ locks) := by
  have hfirst : CacheOk (if c.zombieList = [] then (c, (nrShrink : ℤ))
      else if lock₁ then c.shrinkZombies nrShrink c.zombieList else (c, 0)).1 := by
    split_ifs
    · exact h
    · exact h.shrinkZombies rfl
    · exact h
  unfold ExtentCache.f2fsShrinkExtentTree
  dsimp only
  split_ifs at hfirst ⊢ <;> first | exact hfirst.shrinkNodes | exact hfirst

/-! ## Runs -/

/-- **What callers promise.**  An inode that had a tree is still one that may have a tree, the extent
that is read in agrees with what has been recorded, and the range that is updated has at least one
offset and ends within 32 bits. -/
def ExtentCallersRight (c : ExtentCache) : ExtentStep → Prop
  | .init ino may iExt _ =>
      ((c.trees ino).isSome = true → may = true) ∧
        ∀ ei ∈ iExt, ei.stop < 2 ^ 32 ∧ Agrees (c.recorded ino) ei
  | .update _ fofs _ len _ _ => 1 ≤ len ∧ fofs + len < 2 ^ 32
  | _ => True

/-- All nodes of all trees. -/
def ExtentCache.allNodes (c : ExtentCache) : Set (ℕ × ExtentNode) :=
  { p | ∃ t, c.trees p.1 = some t ∧ p.2 ∈ t.nodes }

/-- **The cache never lies**, and it counts right. -/
structure ExtentRight (c : ExtentCache) : Prop where
  hit : ∀ ino ofs ei c', c.f2fsLookupExtentTree ino ofs = some (ei, c') →
    ei.has ofs = true ∧ c.recorded ino ofs = .at (ei.addr ofs)
  sorted : ∀ ino t, c.trees ino = some t → t.nodes.Pairwise fun a b => a.ei.stop ≤ b.ei.fofs
  nodes : ∀ ino t, c.trees ino = some t → ∀ n ∈ t.nodes, 0 < n.ei.len ∧ Sound (c.recorded ino) n.ei
  largest : ∀ ino t, c.trees ino = some t → Sound (c.recorded ino) t.largest
  nodeCnt : ∀ ino t, c.trees ino = some t → t.nodeCnt = t.nodes.length
  totalExtNode : c.allNodes.Finite ∧ c.totalExtNode = c.allNodes.ncard

lemma CacheOk.step {a : ExtentStep} {c' : ExtentCache} (h : CacheOk c)
    (hg : ExtentCallersRight c a) (hstep : extentStep c a = some c') : CacheOk c' := by
  cases a with
  | init ino may iExt alloc =>
      simp only [extentStep] at hstep
      split_ifs at hstep with hlive
      simp only [Bool.not_eq_true] at hlive
      obtain rfl := Option.some.inj hstep
      obtain ⟨hmay, hei⟩ := hg
      cases iExt with
      | none => exact h.init hlive hmay (by simp)
      | some ei =>
          obtain ⟨hlt, hagrees⟩ := hei ei rfl
          refine (h.record hagrees).init hlive hmay ?_
          rintro _ ⟨⟩
          exact ⟨hlt, record_sound c ino ei⟩
  | update ino fofs blkaddr len alloc₁ alloc₂ =>
      simp only [extentStep] at hstep
      split_ifs at hstep with hlive
      obtain rfl := Option.some.inj hstep
      exact h.update hlive hg.1 hg.2
  | lookup ino pgofs =>
      simp only [extentStep] at hstep
      split_ifs at hstep
      obtain rfl := Option.some.inj hstep
      cases hl : c.f2fsLookupExtentTree ino pgofs with
      | none => exact h
      | some p =>
          obtain ⟨ei, c'⟩ := p
          exact (h.lookup hl).1
  | shrink nrShrink lock₁ lock₂ locks =>
      obtain rfl := Option.some.inj hstep
      exact h.shrink
  | destroyNode ino =>
      simp only [extentStep] at hstep
      split_ifs at hstep
      obtain rfl := Option.some.inj hstep
      unfold ExtentCache.f2fsDestroyExtentNode
      split_ifs
      · exact h.freeTree ino
      · exact h
  | drop ino =>
      simp only [extentStep] at hstep
      split_ifs at hstep with hlive
      obtain rfl := Option.some.inj hstep
      exact h.drop hlive
  | destroyTree ino keep =>
      simp only [extentStep] at hstep
      split_ifs at hstep with hlive hkeep
      · obtain rfl := Option.some.inj hstep
        exact (h.destroyTree hlive keep).1
      · obtain rfl := Option.some.inj hstep
        obtain ⟨hok, hnone⟩ := h.destroyTree hlive keep
        refine ⟨fun j => ?_, hok.counts, hok.zombiesNodup, hok.zombies⟩
        by_cases hji : j = ino
        · subst hji
          have hi := hok.inode j
          rw [hnone (by simpa using hkeep)] at hi
          simpa only [hnone (by simpa using hkeep)] using hi.none _
        · simp only [Function.update_of_ne hji]
          exact hok.inode j

lemma CacheOk.right (h : CacheOk c) : ExtentRight c := by
  refine ⟨fun ino ofs ei c' hl => (h.lookup hl).2, fun ino t ht => ?_, fun ino t ht n hn => ?_,
    fun ino t ht => ?_, fun ino t ht => ?_, ?_⟩
  · exact ((h.inode ino).nodes t ht).sorted
  · exact ⟨(((h.inode ino).nodes t ht).bounds n hn).1, ((h.inode ino).nodes t ht).sound n hn⟩
  · exact ((h.inode ino).largest t ht).sound
  · rw [h.counts.cnt ino t ht, idsOf, List.length_map]
  · -- A node is found on the common list by its number.
    have himage : Set.image (fun p : ℕ × ExtentNode => (p.1, p.2.id)) c.allNodes
        = {p | p ∈ c.extentList} := by
      ext ⟨ino, id⟩
      simp only [Set.mem_image, ExtentCache.allNodes, Set.mem_ofPred_eq, Prod.mk.injEq, h.counts.listed,
        idsOf, List.mem_map]
      constructor
      · rintro ⟨⟨ino', n⟩, ⟨t, ht, hn⟩, rfl, rfl⟩
        exact ⟨t, ht, n, hn, rfl⟩
      · rintro ⟨t, ht, n, hn, rfl⟩
        exact ⟨(ino, n), ⟨t, ht, hn⟩, rfl, rfl⟩
    have hinj : Set.InjOn (fun p : ℕ × ExtentNode => (p.1, p.2.id)) c.allNodes := by
      rintro ⟨ino, n⟩ ⟨t, ht, hn⟩ ⟨ino', n'⟩ ⟨t', ht', hn'⟩ heq
      obtain ⟨rfl, hid⟩ := Prod.mk.inj heq
      rw [ht] at ht'
      obtain rfl := Option.some.inj ht'
      exact Prod.ext rfl (List.inj_on_of_nodup_map (h.counts.idsNodup ino t ht) hn hn' hid)
    have hfin : (Set.image (fun p : ℕ × ExtentNode => (p.1, p.2.id)) c.allNodes).Finite := by
      rw [himage]
      exact c.extentList.finite_toSet
    refine ⟨hfin.of_finite_image hinj, ?_⟩
    have hcard : c.extentList.toFinset.card = c.extentList.length :=
      List.toFinset_card_of_nodup h.counts.nodup
    rw [h.counts.total, ← hinj.ncard_image, himage, ← hcard, ← Set.ncard_coe_finset,
      List.coe_toFinset]

lemma cacheOk_empty : CacheOk emptyCache where
  inode _ := ⟨by simp [emptyCache], by simp [emptyCache], by simp [emptyCache],
    by simp [emptyCache], fun _ => rfl⟩
  counts := ⟨List.nodup_nil, rfl, by simp [emptyCache], by simp [emptyCache], by simp [emptyCache],
    by simp [emptyCache], by simp [emptyCache]⟩
  zombiesNodup := List.nodup_nil
  zombies := by simp [emptyCache]

/-- **The extent cache is sound.**  In every run, every hit gives the address that was recorded last
for its offset, whichever of the three ways it was found, so there is no hit for what was removed;
the nodes are apart and in order, the largest extent agrees with them, and the two counters are the
numbers of nodes. -/
theorem extent_cache_sound (as : List ExtentStep)
    (h : StepsMeet extentStep ExtentCallersRight emptyCache as) :
    Throughout extentStep ExtentRight emptyCache as :=
  (throughout_of_stepsMeet (fun _ _ _ hok hg hs => CacheOk.step hok hg hs) cacheOk_empty h).mono
    fun _ hok => hok.right

instance (recd : ℕ → Recorded) (ei : ExtentInfo) : Decidable (Agrees recd ei) :=
  inferInstanceAs (Decidable (∀ ofs < ei.stop, _ → _))

instance (c : ExtentCache) : ∀ a, Decidable (ExtentCallersRight c a)
  | .init .. => inferInstanceAs (Decidable (_ ∧ _))
  | .update .. => inferInstanceAs (Decidable (_ ∧ _))
  | .lookup .. => inferInstanceAs (Decidable True)
  | .shrink .. => inferInstanceAs (Decidable True)
  | .destroyNode .. => inferInstanceAs (Decidable True)
  | .drop .. => inferInstanceAs (Decidable True)
  | .destroyTree .. => inferInstanceAs (Decidable True)

/-- An extent is read in with its inode and cut in two; a part of the hole is filled, the extent grows
at its end, and the inode goes and comes back. -/
def splitCalls : List ExtentStep :=
  [.init 4 true (some ⟨0, 300, 1000⟩) true, .update 4 100 0 50 true true, .lookup 4 20,
    .update 4 100 5000 10 true true, .update 4 300 1300 70 true true, .lookup 4 365,
    .shrink 1 true true fun _ => true, .destroyTree 4 true, .init 4 true none true, .lookup 4 310]

theorem extent_cache_splitCalls :
    (exec extentStep emptyCache splitCalls).isSome = true ∧
      Throughout extentStep ExtentRight emptyCache splitCalls :=
  ⟨by decide +kernel, extent_cache_sound _ (by decide +kernel)⟩

end Hoit.Extent
