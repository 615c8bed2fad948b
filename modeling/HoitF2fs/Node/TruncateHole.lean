import Mathlib.Data.List.GetD
import HoitF2fs.Node.TruncateBlocks

/-!
# Holes

`f2fs_truncate_hole` gives up the blocks of a range, and leaves the nodes alone.  It goes from dnode
to dnode; where the lookup fails, it goes on behind the missing node.

* `lookup_fails` — the lookup of a block fails at the first missing node of its path, below which
  there is nothing.
* `truncate_hole_exact` — **the blocks of the range are gone and no others**, in at most as many
  rounds as there are blocks.
-/

namespace Hoit.Truncate

open NodePath Slots

/-- Whether a node is there, by its number. -/
def FileTree.present (t : FileTree) (n : ℕ) : Bool := (t.nidAt n).isSome

variable (lay : AddrLayout)

/-- `f2fs_truncate_hole`; `none` if it takes more rounds than `fuel`. -/
def f2fsTruncateHole : (fuel : ℕ) → FileTree → Counters → (pgStart pgEnd : ℕ) →
    Option (ℤ × FileTree × Counters)
  | 0, _, _, _, _ => none
  | fuel + 1, t, s, pgStart, pgEnd =>
      if pgStart < pgEnd then
        match getNodePath lay pgStart with
        | none => some (e2big, t, s)
        | some p =>
            match lookupHole false t.present p pgStart with
            | some curLevel =>
                f2fsTruncateHole fuel t s (f2fsGetNextPageOffset lay curLevel p.level pgStart) pgEnd
            | none =>
                let addr := (t.dnodeAddr p).getD fun _ => nullAddr
                let endOffset := addrsPerPage lay p.level
                let count := min (endOffset - p.ofsInNode) (pgEnd - pgStart)
                let x := f2fsTruncateDataBlocksRange addr p.ofsInNode count s
                f2fsTruncateHole fuel (t.setDnodeAddr p x.1) x.2 (pgStart + count) pgEnd
      else some (0, t, s)

variable {lay} {t t' t'' : FileTree} {s s' s'' : Counters} {b next stop fuel m r n j cur : ℕ}
  {p : Path}

/-! ## The lookup -/

/-- Nothing is below a missing node. -/
lemma blockAt_below_missing (h0 : n ≠ 0) (hnid : t.nidAt n = none) (hj : Below lay n j) :
    t.blockAt lay j = nullAddr := by
  obtain ⟨first, width, hn⟩ := below_nodeOf hj h0
  rw [hn.below] at hj
  by_cases hend : lay.addrsPerInode + 1057052516 ≤ j
  · exact blockAt_beyond hend
  · obtain ⟨i, r, hr, rfl⟩ : ∃ i r, r < 1018 ∧ j = lay.addrsPerInode + 1018 * i + r :=
      ⟨(j - lay.addrsPerInode) / 1018, (j - lay.addrsPerInode) % 1018, by omega, by omega⟩
    rw [blockAt_leaf (by omega) hr, leaf_eq_none hn hnid (by omega) (by omega)]
    rfl

/-- The lookup fails at a node that is missing. -/
lemma nidAt_of_lookupHole (h : lookupHole false t.present p b = some cur) :
    t.nidAt (p.noffset.getD cur 0) = none := by
  rw [lookupHole, if_neg (by simp)] at h
  have hfound := List.find?_some h
  rw [Bool.not_eq_true', FileTree.present, Option.isSome_eq_false_iff, Option.isNone_iff_eq_none]
    at hfound
  exact hfound

/-- It does not fail where the direct node is there. -/
lemma leaf_of_lookupHole (hm : m < 1038362) (hr : r < 1018) (hp : LeafPath lay m r p)
    (h : lookupHole false t.present p b = none) : t.leaf m ≠ none := by
  intro hleaf
  obtain ⟨n, width, hn, hnid, hlt⟩ := exists_hole hm hleaf
  have hself := holeStart_le_self (t := t) (m := m)
  have hbelow : Below lay n (lay.addrsPerInode + 1018 * m + r) := hn.below.mpr (by omega)
  obtain ⟨p', hp', hmem⟩ := hbelow
  obtain rfl : p = p' := Option.some.inj (hp.path.symm.trans hp')
  obtain ⟨i, hpos, hle, rfl⟩ :=
    (getNodePath_eq_some_iff.mp hp.path).mem_noffset hmem hn.ne_zero
  rw [lookupHole, if_neg (by simp), List.find?_eq_none] at h
  refine h i (List.mem_range'_1.mpr ⟨hpos, by omega⟩) ?_
  rw [FileTree.present, hnid]
  rfl

/-! ## One round -/

/-- Where nothing is mapped, nothing has to be cleared. -/
lemma cleared_of_null (hnull : ∀ j, b ≤ j → j < stop → t.blockAt lay j = nullAddr)
    (s : Counters) : Cleared lay b stop t s t s := by
  refine ⟨fun _ => rfl, fun j => ?_, ⟨0, Frees.refl s, (zero_add _).symm⟩⟩
  split_ifs with hj
  · exact hnull j hj.1 hj.2
  · rfl

lemma Cleared.trans (h : Cleared lay b (min next stop) t s t' s')
    (h' : Cleared lay next stop t' s' t'' s'') (hle : b ≤ next) :
    Cleared lay b stop t s t'' s'' := by
  obtain ⟨k, hk, hblocks⟩ := h.frees
  obtain ⟨k', hk', hblocks'⟩ := h'.frees
  refine ⟨fun n => (h'.nidAt n).trans (h.nidAt n), fun j => ?_, ⟨k + k', hk.add hk', by omega⟩⟩
  rw [h'.blockAt, h.blockAt]
  by_cases hj : b ≤ j ∧ j < stop
  · rw [if_pos hj]
    split_ifs with hnext hmin
    · rfl
    · rfl
    · omega
  · rw [if_neg hj, if_neg (by omega), if_neg (by omega)]

/-- **One round** clears what is left of a dnode, or passes a missing node. -/
lemma truncateHole_step (hlt : b < stop) (hstop : stop ≤ lay.addrsPerInode + 1057052516)
    (t : FileTree) (s : Counters) :
    ∃ next t' s', b < next ∧ Cleared lay b (min next stop) t s t' s' ∧
      ∀ fuel, f2fsTruncateHole lay (fuel + 1) t s b stop
        = f2fsTruncateHole lay fuel t' s' next stop := by
  by_cases hinode : b < lay.addrsPerInode
  · have hp := (PathOf.inode (d := lay.addrsPerInode) b hinode).getNodePath
    have hround : ∀ fuel, f2fsTruncateHole lay (fuel + 1) t s b stop
        = f2fsTruncateHole lay fuel
          { t with addr := (f2fsTruncateDataBlocksRange t.addr b
            (min (lay.addrsPerInode - b) (stop - b)) s).1 }
          (f2fsTruncateDataBlocksRange t.addr b (min (lay.addrsPerInode - b) (stop - b)) s).2
          (b + min (lay.addrsPerInode - b) (stop - b)) stop := by
      intro fuel
      rw [f2fsTruncateHole, if_pos hlt, hp]
      rfl
    have hclear := cleared_inode
      (show b ≤ b + min (lay.addrsPerInode - b) (stop - b) by omega)
      (show b + min (lay.addrsPerInode - b) (stop - b) ≤ lay.addrsPerInode by omega) t s
    rw [Nat.add_sub_cancel_left] at hclear
    refine ⟨b + min (lay.addrsPerInode - b) (stop - b), _, _, by omega, ?_, hround⟩
    rw [min_eq_left (a := b + min (lay.addrsPerInode - b) (stop - b)) (by omega)]
    exact hclear
  · obtain ⟨m, r, hr, rfl⟩ : ∃ m r, r < 1018 ∧ b = lay.addrsPerInode + 1018 * m + r :=
      ⟨(b - lay.addrsPerInode) / 1018, (b - lay.addrsPerInode) % 1018, by omega, by omega⟩
    have hm : m < 1038362 := by omega
    obtain ⟨p, hp⟩ := exists_leafPath lay hm hr
    cases hlookup : lookupHole false t.present p (lay.addrsPerInode + 1018 * m + r) with
    | some cur =>
        obtain ⟨hpos, hcur⟩ := lookupHole_level hlookup
        have hpath := getNodePath_eq_some_iff.mp hp.path
        obtain ⟨⟨hgt, hout⟩, hleast⟩ := (hpath.nextExact hpos hcur).least
        refine ⟨_, t, s, hgt, cleared_of_null (fun j hj hjnext => ?_) s, fun fuel => ?_⟩
        · refine blockAt_below_missing (hpath.noffset_ne_zero hpos hcur)
            (nidAt_of_lookupHole hlookup) ?_
          rcases hj.eq_or_lt with rfl | hlt'
          · refine ⟨p, hp.path, ?_⟩
            have hlen := (hpath.leadsToDnode addrsPerInode_le).noffset_length
            rw [List.getD_eq_getElem _ _ (show cur < p.noffset.length by omega)]
            exact List.getElem_mem _
          · by_contra hnot
            exact absurd (hleast ⟨hlt', hnot⟩) (by omega)
        · rw [f2fsTruncateHole, if_pos hlt, hp.path]
          dsimp only
          rw [hlookup]
    | none =>
        obtain ⟨d, hleaf⟩ := Option.ne_none_iff_exists'.mp (leaf_of_lookupHole hm hr hp hlookup)
        have hcount : addrsPerPage lay p.level = 1018 := if_neg hp.level
        obtain ⟨count, hdef⟩ : ∃ count,
            count = min (1018 - r) (stop - (lay.addrsPerInode + 1018 * m + r)) := ⟨_, rfl⟩
        have hclear := cleared_leaf hm (show r + count ≤ 1018 by omega) hp hleaf s
        refine ⟨lay.addrsPerInode + 1018 * m + r + count,
          t.setDnodeAddr p (f2fsTruncateDataBlocksRange d.addr r count s).1,
          (f2fsTruncateDataBlocksRange d.addr r count s).2, by omega, ?_, fun fuel => ?_⟩
        · rw [min_eq_left (by omega)]
          exact hclear
        · rw [f2fsTruncateHole, if_pos hlt, hp.path]
          dsimp only
          rw [hlookup]
          dsimp only
          rw [hp.addr t, hleaf, hp.ofs, hcount, ← hdef]
          rfl

/-! ## All rounds -/

lemma truncateHole_cleared : ∀ (fuel : ℕ) {b : ℕ} {t : FileTree} {s : Counters},
    stop - b < fuel → stop ≤ lay.addrsPerInode + 1057052516 →
      ∃ t' s', f2fsTruncateHole lay fuel t s b stop = some (0, t', s') ∧
        Cleared lay b stop t s t' s'
  | 0, _, _, _, hfuel, _ => absurd hfuel (Nat.not_lt_zero _)
  | fuel + 1, b, t, s, hfuel, hstop => by
      by_cases hlt : b < stop
      · obtain ⟨next, t₁, s₁, hnext, hclear, hround⟩ := truncateHole_step hlt hstop t s
        obtain ⟨t', s', heq, hrest⟩ := truncateHole_cleared fuel (b := next) (t := t₁) (s := s₁)
          (by omega) hstop
        exact ⟨t', s', (hround fuel).trans heq, hclear.trans hrest hnext.le⟩
      · refine ⟨t, s, ?_, cleared_of_null (fun j hj hjs => by omega) s⟩
        rw [f2fsTruncateHole, if_neg hlt]

/-- The blocks of a range are gone, and the nodes are as they were. -/
structure HoleMade (lay : AddrLayout) (b stop : ℕ) (t t' : FileTree) (s s' : Counters) : Prop where
  inside : ∀ j, b ≤ j → j < stop → t'.blockAt lay j = nullAddr
  outside : ∀ j, ¬ (b ≤ j ∧ j < stop) → t'.blockAt lay j = t.blockAt lay j
  nodes : ∀ n, t'.nidAt n = t.nidAt n
  frees : Frees (t.mapped lay (Set.Ico b stop), 0) s s'

/-- **A hole is made of exactly the blocks of the range**, in a range that `get_node_path` accepts,
and `f2fs_truncate_hole` returns. -/
theorem truncate_hole_exact (lay : AddrLayout) (t : FileTree) (s : Counters) (b stop fuel : ℕ)
    (hstop : stop ≤ lay.addrsPerInode + 1057052516) (hfuel : stop - b < fuel) :
    ∃ t' s', f2fsTruncateHole lay fuel t s b stop = some (0, t', s') ∧
      HoleMade lay b stop t t' s s' := by
  obtain ⟨t', s', heq, hclear⟩ := truncateHole_cleared fuel (t := t) (s := s) hfuel hstop
  refine ⟨t', s', heq, fun j hb hj => (hclear.blockAt j).trans (if_pos ⟨hb, hj⟩),
    fun j hj => (hclear.blockAt j).trans (if_neg hj), hclear.nidAt, ?_⟩
  obtain ⟨k, hk, hblocks⟩ := hclear.frees
  have hlost := @blocks_lost lay t t' (Set.Ico b stop)
    (fun j hj => (hclear.blockAt j).trans (if_pos hj))
    (fun j hj => (hclear.blockAt j).trans (if_neg hj))
  rw [show t.mapped lay (Set.Ico b stop) = k by omega]
  exact hk

/-- From the inode to the direct node, and then over what is missing. -/
theorem truncate_hole_exact_holes :
    ∃ t' s', f2fsTruncateHole plainLayout 4000 holeyFile ⟨100, 10, 0⟩ 10 3000 = some (0, t', s') ∧
      HoleMade plainLayout 10 3000 holeyFile t' ⟨100, 10, 0⟩ s' :=
  truncate_hole_exact plainLayout holeyFile ⟨100, 10, 0⟩ 10 3000 4000 (by decide) (by decide)

end Hoit.Truncate
