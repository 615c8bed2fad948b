import HoitF2fs.Dir.NameTree

/-!
# Link counts

The link count of an inode is the number of entries that lead to it, `.` and `..` among them, and the
list of orphans has the inodes that no entry leads to.

* `Counts` — that this is so, with the number of orphans.
* `iNlink_inc`, `iNlink_dec` — what `f2fs_i_links_write` does to all counts, as a sum.
* `Counts.congr`, `Counts.drop`, `Counts.link` — what a call leaves behind: the orphans stay, there
  may be one more, or one less.
-/

namespace Hoit.Namei

open Dir ByteStore RefCount

/-! ## Changes of a count -/

namespace Inodes

/-- There may be one orphan more. -/
def acquired (t : Inodes) : Inodes := { t with inoNum := t.inoNum + 1 }

@[simp] lemma acquired_iMode (t : Inodes) : t.acquired.iMode = t.iMode := rfl

@[simp] lemma acquired_iNlink (t : Inodes) : t.acquired.iNlink = t.iNlink := rfl

variable (t : Inodes) (x i : ℕ) (inc : Bool)

@[simp] lemma links_iMode : (t.f2fsILinksWrite x inc).iMode = t.iMode := rfl

@[simp] lemma links_inodes : (t.f2fsILinksWrite x inc).inodes = t.inodes := rfl

@[simp] lemma links_orphans : (t.f2fsILinksWrite x inc).orphans = t.orphans := rfl

@[simp] lemma links_inoNum : (t.f2fsILinksWrite x inc).inoNum = t.inoNum := rfl

@[simp] lemma links_maxOrphans : (t.f2fsILinksWrite x inc).maxOrphans = t.maxOrphans := rfl

@[simp] lemma iNlink_inc : (t.f2fsILinksWrite x true).iNlink i = t.iNlink i + ind (some x) i := by
  unfold f2fsILinksWrite ind
  by_cases h : i = x
  · simp [h]
  · simp [h, Ne.symm h]

@[simp] lemma iNlink_dec : (t.f2fsILinksWrite x false).iNlink i = t.iNlink i - ind (some x) i := by
  unfold f2fsILinksWrite ind
  by_cases h : i = x
  · simp [h]
  · simp [h, Ne.symm h]

@[simp] lemma orphanOrRelease_iMode : (t.orphanOrRelease x).iMode = t.iMode := by
  unfold orphanOrRelease
  split <;> rfl

@[simp] lemma orphanOrRelease_iNlink : (t.orphanOrRelease x).iNlink = t.iNlink := by
  unfold orphanOrRelease
  split <;> rfl

@[simp] lemma orphanOrRelease_inodes : (t.orphanOrRelease x).inodes = t.inodes := by
  unfold orphanOrRelease
  split <;> rfl

@[simp] lemma orphanOrRelease_maxOrphans : (t.orphanOrRelease x).maxOrphans = t.maxOrphans := by
  unfold orphanOrRelease
  split <;> rfl

@[simp] lemma dropNlink_iMode (d : ℕ) : (t.dropNlink d x).iMode = t.iMode := by
  unfold dropNlink
  rw [orphanOrRelease_iMode]
  split <;> rfl

@[simp] lemma dropNlink_inodes (d : ℕ) : (t.dropNlink d x).inodes = t.inodes := by
  unfold dropNlink
  rw [orphanOrRelease_inodes]
  split <;> rfl

@[simp] lemma dropNlink_maxOrphans (d : ℕ) : (t.dropNlink d x).maxOrphans = t.maxOrphans := by
  unfold dropNlink
  rw [orphanOrRelease_maxOrphans]
  split <;> rfl

@[simp] lemma initLink_iMode : (t.initLink i inc).iMode = t.iMode := by
  unfold initLink f2fsRemoveOrphanInode
  split_ifs <;> rfl

@[simp] lemma initLink_inodes : (t.initLink i inc).inodes = t.inodes := by
  unfold initLink f2fsRemoveOrphanInode
  split_ifs <;> rfl

@[simp] lemma initLink_maxOrphans : (t.initLink i inc).maxOrphans = t.maxOrphans := by
  unfold initLink f2fsRemoveOrphanInode
  split_ifs <;> rfl

end Inodes

/-! ## The invariant -/

structure Counts (t : Inodes) (names : Names) : Prop where
  links : ∀ i ∈ t.inodes, t.iNlink i = count names i
  orphan : ∀ i, i ∈ t.orphans ↔ i ∈ t.inodes ∧ count names i = 0
  inoNum : t.inoNum = t.orphans.card

variable {t t' : Inodes} {names names' : Names} {i ino mode : ℕ}

/-- An entry that is set to another value. -/
lemma count_set (h : Finite names) {x : ℕ × List Byte} {o : Option ℕ} (hx : names x = o)
    (o' : Option ℕ) (j : ℕ) :
    count (Function.update names x o') j + ind o j = count names j + ind o' j := by
  rw [← hx]
  exact count_update h x o' j

namespace Counts

/-- The same inodes have entries as before. -/
lemma congr (h : Counts t names) (hinodes : t'.inodes = t.inodes) (horphans : t'.orphans = t.orphans)
    (hnum : t'.inoNum = t.inoNum)
    (hlinks : ∀ j, t.iNlink j = count names j → t'.iNlink j = count names' j)
    (hzero : ∀ j, count names' j = 0 ↔ count names j = 0) : Counts t' names' where
  links j hj := hlinks j (h.links j (hinodes ▸ hj))
  orphan j := by rw [horphans, hinodes, hzero, h.orphan]
  inoNum := by rw [hnum, horphans, h.inoNum]

/-- One inode may have lost its last entry.  The number has gone up before. -/
lemma drop (h : Counts t names) (hi : i ∈ t.inodes) (hlinked : count names i ≠ 0)
    (hinodes : t'.inodes = t.inodes) (horphans : t'.orphans = t.orphans)
    (hnum : t'.inoNum = t.inoNum + 1)
    (hlinks : ∀ j, t.iNlink j = count names j → t'.iNlink j = count names' j)
    (hzero : ∀ j ≠ i, (count names' j = 0 ↔ count names j = 0)) :
    Counts (t'.orphanOrRelease i) names' := by
  have hi' := hlinks i (h.links i hi)
  have hout : i ∉ t.orphans := fun hin => hlinked ((h.orphan i).mp hin).2
  refine ⟨fun j hj => ?_, fun j => ?_, ?_⟩
  · rw [Inodes.orphanOrRelease_inodes, hinodes] at hj
    rw [Inodes.orphanOrRelease_iNlink]
    exact hlinks j (h.links j hj)
  · unfold Inodes.orphanOrRelease
    by_cases h0 : t'.iNlink i = 0
    · rw [if_pos h0]
      show j ∈ insert i t'.orphans ↔ j ∈ t'.inodes ∧ _
      rw [Finset.mem_insert, horphans, hinodes]
      by_cases hj : j = i
      · rw [hj, ← hi']
        simp [hi, h0]
      · rw [hzero j hj, h.orphan]
        simp [hj]
    · rw [if_neg h0]
      show j ∈ t'.orphans ↔ j ∈ t'.inodes ∧ _
      rw [horphans, hinodes]
      by_cases hj : j = i
      · rw [hj, ← hi']
        simp [hout, h0]
      · rw [hzero j hj, h.orphan]
  · unfold Inodes.orphanOrRelease
    by_cases h0 : t'.iNlink i = 0
    · rw [if_pos h0]
      show t'.inoNum = (insert i t'.orphans).card
      rw [horphans, Finset.card_insert_of_notMem hout, hnum, h.inoNum]
    · rw [if_neg h0]
      show t'.inoNum - 1 = t'.orphans.card
      rw [horphans, hnum, Nat.add_sub_cancel, h.inoNum]

/-- An inode with one more entry is no longer an orphan. -/
lemma link (h : Counts t names) (hi : i ∈ t.inodes)
    (hcount : ∀ j, count names' j = count names j + ind (some i) j) :
    Counts (t.initLink i true) names' := by
  have hself : count names' i ≠ 0 := by
    rw [hcount, ind_self]
    omega
  have hother : ∀ j ≠ i, count names' j = count names j := fun j hj => by
    rw [hcount, ind_of_ne hj.symm, Nat.add_zero]
  unfold Inodes.initLink
  rw [if_pos rfl]
  by_cases h0 : t.iNlink i = 0
  · have hin : i ∈ t.orphans := (h.orphan i).mpr ⟨hi, h.links i hi ▸ h0⟩
    rw [if_pos h0, Inodes.f2fsRemoveOrphanInode, if_pos hin]
    refine ⟨fun j hj => ?_, fun j => ?_, ?_⟩
    · rw [Inodes.iNlink_inc, hcount]
      exact congrArg (· + _) (h.links j hj)
    · show j ∈ t.orphans.erase i ↔ j ∈ t.inodes ∧ _
      rw [Finset.mem_erase, h.orphan]
      by_cases hj : j = i
      · simp [hj, hself]
      · simp [hj, hother j hj]
    · show t.inoNum - 1 = (t.orphans.erase i).card
      rw [Finset.card_erase_of_mem hin, h.inoNum]
  · rw [if_neg h0]
    have hpos : count names i ≠ 0 := h.links i hi ▸ h0
    refine h.congr rfl rfl rfl (fun j hj => ?_) fun j => ?_
    · rw [Inodes.iNlink_inc, hcount, hj]
    · by_cases hj : j = i
      · rw [hj]
        simp [hself, hpos]
      · rw [hother j hj]

/-- A new inode has its first entry from the start. -/
lemma newInode (h : Counts t names) (hino : ino ∉ t.inodes) (hin : t'.inodes = insert ino t.inodes)
    (horphans : t'.orphans = t.orphans) (hnum : t'.inoNum = t.inoNum)
    (hlinks : ∀ j ∈ t.inodes, t'.iNlink j = count names' j)
    (hself : t'.iNlink ino = count names' ino) (hpos : count names' ino ≠ 0)
    (hzero : ∀ j ∈ t.inodes, (count names' j = 0 ↔ count names j = 0)) : Counts t' names' where
  links j hj := by
    rw [hin, Finset.mem_insert] at hj
    rcases hj with rfl | hj
    · exact hself
    · exact hlinks j hj
  orphan j := by
    rw [horphans, hin, Finset.mem_insert, h.orphan]
    by_cases hj : j = ino
    · rw [hj]
      simp [hino, hpos]
    · simp only [hj, false_or]
      exact and_congr_right fun hjin => (hzero j hjin).symm
  inoNum := by rw [hnum, horphans, h.inoNum]

end Counts

end Hoit.Namei
